namespace ContextScan

/-! The state that a host saves between calls.

A scanner keeps nothing from one call to the next, so its snapshot is empty, and every snapshot
restores the one state there is. -/

structure ScannerState where
deriving DecidableEq, Repr

namespace ScannerState

/-- What a host keeps for the scanner from call to call: nothing. -/
def payload? (_state : ScannerState) : Option (List UInt8) := none

/-- Writes a snapshot into a buffer.  Gives the number of bytes written, and the buffer. -/
def save (_state : ScannerState) (buffer : List UInt8) : Nat × List UInt8 := (0, buffer)

def restore (state : ScannerState) (_snapshot : List UInt8) : ScannerState := state

end ScannerState

end ContextScan
