import ContextScan.CommandLine.Report
import ContextScan.Proofs.CommandLine.Options
import ContextScan.Proofs.Replay.Tiling
import ContextScan.Proofs.Statement.Gap
import ContextScan.Text.Split

namespace ContextScan

/-! Reports of replays are read back.

A report has one line for each segment that it lists.  The name on a line is filled up to the width
that all names share, the numbers end where no digit follows, and the quoted text has no line feed
of its own; so what a line tells is read off the line alone.  The ranges are ranges of the text, and
the part of the text in each is cut out without loss. -/

/-- No kind has a blank in its name, or a name that does not fit. -/
theorem TokenKind.name_fits (kind : TokenKind) :
    kind.name.toList.length ≤ Report.nameWidth ∧ ' ' ∉ kind.name.toList ∧
      '\n' ∉ kind.name.toList := by
  cases kind <;> decide

namespace Report

/-- What a line tells of a segment. -/
structure WalkEntry where
  name : Text
  range : ByteRange
  lexeme : Text
deriving DecidableEq, Repr

def WalkEntry.ofSegment (text : Text) (segment : Segment) : WalkEntry :=
  let range := segment.span.token
  ⟨segmentName segment, range, range.slice text⟩

def takeDecimal? (text : Text) : Option (Nat × Text) :=
  (parseDecimal? (text.takeWhile Char.isDigit)).map fun number =>
    (number, text.dropWhile Char.isDigit)

/-- Reads two numbers with dots between them, and the quoted text after them. -/
def readDescribed? (described : Text) : Option (ByteRange × Text) := do
  let (start, rest) ← takeDecimal? described
  let (stop, rest) ← takeDecimal? (← dropLead? "..".toList rest)
  let lexeme ← Quoted.decode? (← dropLead? [' '] rest)
  return (⟨start, stop⟩, lexeme)

/-- Reads a line.  The name ends with the blanks that fill it up. -/
def readWalkLine? (line : Text) : Option WalkEntry := do
  let name := (line.take nameWidth).takeWhile (· != ' ')
  let (range, lexeme) ← readDescribed? (← dropLead? [' '] (line.drop nameWidth))
  return ⟨name, range, lexeme⟩

theorem takeDecimal?_decimal {number : Nat} {rest : Text} (ends : Stops Char.isDigit rest) :
    takeDecimal? (decimal number ++ rest) = some (number, rest) := by
  have digits : ∀ c ∈ decimal number, c.isDigit = true := fun _ => isDigit_of_mem_decimal
  rw [takeDecimal?, ends.takeWhile_append digits, ends.dropWhile_append digits,
    parseDecimal?_decimal]
  rfl

theorem readDescribed?_describe (text : Text) (range : ByteRange) :
    readDescribed? (describe text range) = some (range, range.slice text) := by
  have dots : Stops Char.isDigit ("..".toList ++ (decimal range.stop ++
      ' ' :: Quoted.encode (range.slice text))) := .cons rfl
  have blank : Stops Char.isDigit (' ' :: Quoted.encode (range.slice text)) := .cons rfl
  have spelled : describe text range = decimal range.start ++ ("..".toList ++
      (decimal range.stop ++ ' ' :: Quoted.encode (range.slice text))) := by
    simp [describe]
  have lead (rest : Text) : dropLead? [' '] (' ' :: rest) = some rest := dropLead?_append [' '] rest
  simp only [readDescribed?, spelled, takeDecimal?_decimal dots, takeDecimal?_decimal blank,
    dropLead?_append, lead, Quoted.decode?_encode, Option.bind_eq_bind, Option.bind_some]
  rfl

theorem segmentName_fits (segment : Segment) :
    (segmentName segment).length ≤ nameWidth ∧ ' ' ∉ segmentName segment ∧
      '\n' ∉ segmentName segment := by
  unfold segmentName
  split
  · exact TokenKind.name_fits _
  · decide

theorem length_padRight {width : Nat} {text : Text} (fits : text.length ≤ width) :
    (padRight width text).length = width := by
  rw [padRight, List.length_append, List.length_replicate]
  omega

theorem takeWhile_padRight {text : Text} (visible : ' ' ∉ text) (width : Nat) :
    (padRight width text).takeWhile (· != ' ') = text := by
  have inside : ∀ c ∈ text, (c != ' ') = true := by
    intro c member
    rw [bne_iff_ne]
    rintro rfl
    exact visible member
  have ends : Stops (· != ' ') (List.replicate (width - text.length) ' ') := by
    intro c next
    rw [List.eq_of_mem_replicate (List.mem_of_head? next)]
    rfl
  exact ends.takeWhile_append inside

theorem readWalkLine?_walkLine (text : Text) (segment : Segment) :
    readWalkLine? (walkLine text segment) = some (.ofSegment text segment) := by
  obtain ⟨fits, visible, _⟩ := segmentName_fits segment
  have width := length_padRight fits
  have name : (walkLine text segment).take nameWidth
      = padRight nameWidth (segmentName segment) := List.take_left' width
  have described : (walkLine text segment).drop nameWidth
      = ' ' :: describe text segment.span.token := List.drop_left' width
  have lead : dropLead? [' '] (' ' :: describe text segment.span.token)
      = some (describe text segment.span.token) := dropLead?_append [' '] _
  simp only [readWalkLine?, name, described, takeWhile_padRight visible, lead,
    readDescribed?_describe, Option.bind_eq_bind, Option.bind_some]
  rfl

theorem lineFeed_notMem_decimal (number : Nat) : '\n' ∉ decimal number := by
  intro member
  cases isDigit_of_mem_decimal member

theorem lineFeed_notMem_walkLine (text : Text) (segment : Segment) :
    '\n' ∉ walkLine text segment := by
  have named := (segmentName_fits segment).2.2
  simp [walkLine, padRight, describe, named, lineFeed_notMem_decimal,
    Quoted.lineFeed_notMem_encode]

/-- Lines that have no line feed of their own are told apart by those at their ends. -/
theorem split_unlines {lines : List Text} (whole : ∀ line ∈ lines, '\n' ∉ line) :
    split '\n' (unlines lines).toList = lines ++ [[]] := by
  rw [unlines, String.toList_ofList]
  induction lines with
  | nil => rfl
  | cons line lines ih =>
      obtain ⟨here, later⟩ := List.forall_mem_cons.mp whole
      rw [List.flatMap_cons, List.append_assoc, List.singleton_append,
        split_append '\n' line _ here, ih later, List.cons_append]

end Report

/-- Whether a range is one of a text: what is cut out there stands between its two ends. -/
def ByteRange.CutsOut (range : ByteRange) (text lexeme : Text) : Prop :=
  ∃ before after, text = before ++ (lexeme ++ after) ∧ byteSize before = range.start ∧
    byteSize (before ++ lexeme) = range.stop

theorem ByteRange.cutsOut_slice {text : Text} {range : ByteRange}
    (startBoundary : isBoundary text range.start = true)
    (stopBoundary : isBoundary text range.stop = true) (ordered : range.start ≤ range.stop) :
    range.CutsOut text (range.slice text) := by
  obtain ⟨start, stop⟩ := range
  obtain ⟨before, rest, rfl, rfl⟩ := isBoundary_iff.mp startBoundary
  obtain ⟨between, after, rfl, rfl⟩ := exists_between stopBoundary ordered
  have sliced := slice_append before between after
  rw [← byteSize_append] at sliced
  rw [sliced]
  exact ⟨before, after, rfl, rfl, rfl⟩

/-- The token range of every segment of a replay is a range of the text. -/
theorem Replays.cutsOut {text : Text} {kinds : KindSet} {offset : Nat} {all : List Segment}
    (replays : Replays text kinds offset all) {segment : Segment} (member : segment ∈ all) :
    segment.span.token.CutsOut text (segment.span.token.slice text) := by
  cases taken : segment.kind? with
  | none =>
      obtain ⟨before, after, split⟩ := List.append_of_mem member
      obtain ⟨_, c, _, stands, rfl, _⟩ := replays.hostTakes split taken
      exact ByteRange.cutsOut_slice stands.boundary stands.nextBoundary (Nat.le_add_right _ _)
  | some kind =>
      have produced := replays.produced_of_mem member taken
      obtain ⟨reader, _, _, finished, _, within⟩ := Token.within_of_scan? produced
      change (Reader.scan kinds reader).reader.finish = segment.span at finished
      obtain ⟨stopBoundary, _⟩ := within.stopPlaced
      obtain ⟨startBoundary, _, ordered⟩ := within.tokenPlaced
      rw [← finished]
      exact ByteRange.cutsOut_slice startBoundary stopBoundary ordered

namespace Report

/-- The report of a replay is faithful, line by line.

It has one line for each segment that is listed, in order: all segments, or the tokens only.  No
line has a line feed of its own.  From a line are read back the name of its segment, its range and
the part of the text in that range, which is well inside the text. -/
theorem walk_reads_back (text : Text) (requested : KindSet) (all : Bool) :
    let shown := if all then segments text requested
      else (segments text requested).filter fun segment => segment.kind?.isSome
    ∃ lines, walk text requested all = unlines lines ∧
      split '\n' (walk text requested all).toList = lines ++ [[]] ∧
      (∀ line ∈ lines, '\n' ∉ line) ∧
      lines.map readWalkLine? = shown.map (fun segment => some (.ofSegment text segment)) ∧
      ∀ segment ∈ shown,
        segment.span.token.CutsOut text (WalkEntry.ofSegment text segment).lexeme := by
  intro shown
  have same : listed text requested all = shown := by
    cases all <;> simp [listed, shown]
  have whole : ∀ line ∈ shown.map (walkLine text), '\n' ∉ line := by
    intro line member
    obtain ⟨segment, _, rfl⟩ := List.mem_map.mp member
    exact lineFeed_notMem_walkLine text segment
  have written : walk text requested all = unlines (shown.map (walkLine text)) := by
    rw [walk, same]
  refine ⟨shown.map (walkLine text), written, ?_, whole, ?_, fun segment member => ?_⟩
  · rw [written]
    exact split_unlines whole
  · rw [List.map_map]
    exact List.map_congr_left fun segment _ => readWalkLine?_walkLine text segment
  · have replayed : segment ∈ segments text requested := by
      cases all
      · exact (List.mem_filter.mp member).1
      · exact member
    exact (replays_segments text requested).cutsOut replayed

/-- A comment with a line feed, a quote, a backslash and a bell in it is told on one line. -/
theorem walk_reads_back_escapes :
    let text := "a/*\n\"\\\x07*/".toList
    let comment := "/*\n\"\\\x07*/".toList
    let requested := KindSet.ofList [.blockComment]
    let segment : Segment := ⟨some .blockComment, ⟨⟨1, 9⟩, ⟨1, 9⟩⟩⟩
    (segments text requested).filter (fun segment => segment.kind?.isSome) = [segment] ∧
      segment.span.token.CutsOut text comment ∧
      ∃ line, split '\n' (walk text requested false).toList = [line, []] ∧
        readWalkLine? line = some ⟨"block_comment".toList, ⟨1, 9⟩, comment⟩ := by
  intro text comment requested segment
  have shown : (segments text requested).filter (fun segment => segment.kind?.isSome)
      = [segment] := by decide +kernel
  obtain ⟨lines, _, parted, _, read, placed⟩ := walk_reads_back text requested false
  simp only [Bool.false_eq_true, if_false, shown, List.map_cons, List.map_nil] at read placed
  obtain ⟨line, rfl, told⟩ := List.map_eq_singleton_iff.mp read
  exact ⟨shown, placed segment List.mem_cons_self, line, parted, told⟩

end Report

end ContextScan
