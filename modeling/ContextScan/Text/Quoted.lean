import ContextScan.Text.Printable
import ContextScan.Text.Blank

namespace ContextScan

/-! Quoted text.

A quoted text stands between double quotes on one line.  Quotes, backslashes, tabs, line breaks and
NUL have escapes of two characters, other characters that are not printable are given by their code
point, and all else stands for itself.  `decode?_encode` says that quoting loses nothing. -/

namespace Quoted

/-- How a character is written inside quotes. -/
def encodeChar (c : Char) : Text :=
  match c with
  | '"' => ['\\', '"']
  | '\\' => ['\\', '\\']
  | '\t' => ['\\', 't']
  | '\r' => ['\\', 'r']
  | '\n' => ['\\', 'n']
  | '\x00' => ['\\', '0']
  | _ =>
      if isPrintable c then [c]
      else '\\' :: 'u' :: '{' :: Nat.toDigits 16 c.toNat ++ ['}']

def encode (text : Text) : Text := '"' :: text.flatMap encodeChar ++ ['"']

def digitValue (digit : Char) : Nat :=
  if digit.isDigit then digit.toNat - '0'.toNat else digit.toNat - 'a'.toNat + 10

def hexValue (digits : Text) : Nat :=
  digits.foldl (fun value digit => 16 * value + digitValue digit) 0

/-- Reads one character inside quotes, and gives what follows it. -/
def readChar? : Text → Option (Char × Text)
  | [] => none
  | '"' :: _ => none
  | '\\' :: '"' :: rest => some ('"', rest)
  | '\\' :: '\\' :: rest => some ('\\', rest)
  | '\\' :: 't' :: rest => some ('\t', rest)
  | '\\' :: 'r' :: rest => some ('\r', rest)
  | '\\' :: 'n' :: rest => some ('\n', rest)
  | '\\' :: '0' :: rest => some ('\x00', rest)
  | '\\' :: 'u' :: '{' :: rest =>
      match rest.dropWhile (· != '}') with
      | [] => none
      | _ :: after => some (Char.ofNat (hexValue (rest.takeWhile (· != '}'))), after)
  | '\\' :: _ => none
  | c :: rest => some (c, rest)

theorem length_rest_readChar?_lt {text rest : Text} {c : Char}
    (read : readChar? text = some (c, rest)) : rest.length < text.length := by
  unfold readChar? at read
  split at read
  case h_9 tail =>
    have bound := (List.dropWhile_suffix (· != '}') (l := tail)).length_le
    split at read
    · cases read
    · rename_i dropped
      simp only [Option.some.injEq, Prod.mk.injEq] at read
      rw [dropped] at bound
      obtain ⟨_, rfl⟩ := read
      simp only [List.length_cons] at bound ⊢
      omega
  all_goals cases read
  all_goals
    simp only [List.length_cons]
    omega

/-- Reads a text up to the closing quote, which has to be the last character. -/
def readToQuote? (text : Text) : Option Text :=
  if text = ['"'] then some []
  else
    match _read : readChar? text with
    | none => none
    | some (c, rest) => (readToQuote? rest).map (c :: ·)
termination_by text.length
decreasing_by exact length_rest_readChar?_lt _read

def decode? : Text → Option Text
  | '"' :: rest => readToQuote? rest
  | _ => none

theorem digitValue_digitChar {digit : Nat} (small : digit < 16) :
    digitValue digit.digitChar = digit := by
  have each : ∀ digit : Fin 16, digitValue digit.val.digitChar = digit.val := by decide
  exact each ⟨digit, small⟩

theorem hexValue_toDigits (number : Nat) : hexValue (Nat.toDigits 16 number) = number := by
  induction number using Nat.strongRecOn with
  | ind number ih =>
      by_cases small : number < 16
      · rw [Nat.toDigits_of_lt_base small]
        simp [hexValue, digitValue_digitChar small]
      · rw [Nat.toDigits_of_base_le (by decide) (by omega)]
        have leading := ih (number / 16) (by omega)
        rw [hexValue] at leading ⊢
        rw [List.foldl_append, leading]
        simp only [List.foldl_cons, List.foldl_nil,
          digitValue_digitChar (Nat.mod_lt number (by decide : 16 > 0))]
        omega

theorem notMem_toDigits {c : Char} (other : ∀ digit, Nat.digitChar digit ≠ c) (number : Nat) :
    c ∉ Nat.toDigits 16 number := by
  induction number using Nat.strongRecOn with
  | ind number ih =>
      by_cases small : number < 16
      · rw [Nat.toDigits_of_lt_base small, List.mem_singleton]
        exact (other number).symm
      · rw [Nat.toDigits_of_base_le (by decide) (by omega), List.mem_append, List.mem_singleton]
        rintro (leading | last)
        · exact ih (number / 16) (by omega) leading
        · exact other _ last.symm

/-- Each character is read back from what is written for it, whatever follows. -/
theorem readChar?_encodeChar (c : Char) (rest : Text) :
    readChar? (encodeChar c ++ rest) = some (c, rest) := by
  unfold encodeChar
  split
  iterate 6 rfl
  rename_i notQuote notBackslash _ _ _ _
  split
  · unfold readChar?
    split <;> simp_all
  · have inside : ∀ digit ∈ Nat.toDigits 16 c.toNat, (digit != '}') = true := by
      intro digit member
      rw [bne_iff_ne]
      rintro rfl
      exact notMem_toDigits (fun _ => Nat.digitChar_ne '}' (by decide)) _ member
    simp only [List.cons_append, List.append_assoc, List.nil_append, readChar?]
    rw [List.dropWhile_append_of_pos inside, List.takeWhile_append_of_pos inside]
    simp [hexValue_toDigits]

theorem encodeChar_append_ne (c : Char) (rest : Text) : encodeChar c ++ rest ≠ ['"'] := by
  intro same
  have read := readChar?_encodeChar c rest
  rw [same] at read
  cases read

theorem decode?_encode (text : Text) : decode? (encode text) = some text := by
  simp only [encode, decode?, List.cons_append]
  induction text with
  | nil => simp [readToQuote?]
  | cons c rest ih =>
      rw [List.flatMap_cons, List.append_assoc, readToQuote?, if_neg (encodeChar_append_ne _ _)]
      split
      · rename_i unread
        rw [readChar?_encodeChar] at unread
        cases unread
      · rename_i read
        rw [readChar?_encodeChar] at read
        cases read
        rw [ih, Option.map_some]

theorem lineFeed_notMem_encodeChar (c : Char) : '\n' ∉ encodeChar c := by
  have digits := notMem_toDigits (fun _ => Nat.digitChar_ne '\n' (by decide)) c.toNat
  unfold encodeChar
  split
  iterate 6 decide
  rename_i notLineFeed _
  split
  · rw [List.mem_singleton]
    exact Ne.symm notLineFeed
  · simp [digits]

/-- A quoted text stands on one line. -/
theorem lineFeed_notMem_encode (text : Text) : '\n' ∉ encode text := by
  simp [encode, lineFeed_notMem_encodeChar]

end Quoted

end ContextScan
