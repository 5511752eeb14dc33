import ContextScan.Proofs.Statement.Line
import ContextScan.Proofs.Text.Places
import ContextScan.Proofs.Token.Forms

namespace ContextScan

/-! Annotations before an accessor.

Where an accessor may follow, annotations at the start of a line are passed over, arguments with
blanks in them included, and what stands behind them is read as if it stood there alone.  Only a `/`
behind them is no comment any more: the terminator is inserted at once. -/

open Scan Continuation

/-- What an annotation has after its `@`: visible characters, and arguments in parentheses, which
may have blanks in them but no line feed. -/
inductive AnnotationParts : Text → Prop where
  | nil : AnnotationParts []
  | name {c : Char} {rest : Text} (visible : isBlank c = false) (opens : c ≠ '(') (closes : c ≠ ')')
      (more : AnnotationParts rest) : AnnotationParts (c :: rest)
  | arguments {inside rest : Text} (flat : '(' ∉ inside ∧ ')' ∉ inside) (line : '\n' ∉ inside)
      (more : AnnotationParts rest) : AnnotationParts ('(' :: (inside ++ ')' :: rest))

/-- Whether a text is made of annotations, each with blanks after it. -/
inductive AnnotationRun : Text → Prop where
  | nil : AnnotationRun []
  | cons {parts gap others : Text} (formed : AnnotationParts parts) (blank : IsGap gap)
      (parted : gap ≠ []) (more : AnnotationRun others) :
      AnnotationRun ('@' :: (parts ++ (gap ++ others)))

namespace Annotations

/-- Whether a text is passed over from one place to another, whatever follows it. -/
def Leads (start stop : Place) (passed : Text) : Prop :=
  ∀ rest, skipAll start (passed ++ rest)
    = (skipAll stop rest).precededBy (List.replicate passed.length .skip)

namespace Leads

variable {start place stop : Place} {c : Char} {passed later : Text}

theorem nil (place : Place) : Leads place place [] := fun _ => rfl

theorem cons (step : ∀ rest, skipAll start (c :: rest) = (skipAll place rest).precededBy [.skip])
    (onward : Leads place stop passed) : Leads start stop (c :: passed) := by
  intro rest
  rw [List.cons_append, step, onward, Run.precededBy_precededBy]
  rfl

theorem append (first : Leads start place passed) (second : Leads place stop later) :
    Leads start stop (passed ++ later) := by
  intro rest
  rw [List.append_assoc, first, second, Run.precededBy_precededBy, List.replicate_append_replicate,
    List.length_append]

end Leads

theorem leads_gap {gap : Text} (blank : IsGap gap) : Leads .gap .gap gap := by
  induction gap with
  | nil => exact .nil .gap
  | cons c gap ih =>
      obtain ⟨here, later⟩ := List.forall_mem_cons.mp blank
      refine .cons (fun rest => ?_) (ih later)
      rw [skipAll_gap_cons, if_pos here]

/-- The first blank ends a name. -/
theorem leads_name_gap {gap : Text} (blank : IsGap gap) (parted : gap ≠ []) :
    Leads .name .gap gap := by
  obtain ⟨c, gap, rfl⟩ := List.exists_cons_of_ne_nil parted
  obtain ⟨here, later⟩ := List.forall_mem_cons.mp blank
  refine .cons (fun rest => ?_) (leads_gap later)
  rw [skipAll_name_cons, if_pos here]

theorem leads_arguments {inside : Text} (closes : ')' ∉ inside) (line : '\n' ∉ inside) :
    Leads .arguments .arguments inside := by
  induction inside with
  | nil => exact .nil .arguments
  | cons c inside ih =>
      rw [List.mem_cons, not_or] at closes line
      refine .cons (fun rest => ?_) (ih closes.2 line.2)
      rw [skipAll_arguments_cons, if_neg (Ne.symm line.1), if_neg (Ne.symm closes.1)]

end Annotations

open Annotations

theorem AnnotationParts.leads {parts : Text} (formed : AnnotationParts parts) :
    Leads .name .name parts := by
  induction formed with
  | nil => exact .nil .name
  | name visible opens _ _ ih =>
      refine .cons (fun rest => ?_) ih
      rw [skipAll_name_cons, if_neg (by simp [visible]), if_neg opens]
  | @arguments inside rest flat line _ ih =>
      have closed : Leads .arguments .name (')' :: rest) := .cons (skipAll_arguments_cons ')') ih
      exact .cons (skipAll_name_cons '(') ((leads_arguments flat.2 line).append closed)

/-- Annotations are passed over with the blanks between them and behind the last. -/
theorem AnnotationRun.leads {annotations : Text} (annotated : AnnotationRun annotations) :
    Leads .gap .gap annotations := by
  induction annotated with
  | nil => exact .nil .gap
  | cons formed blank parted _ ih =>
      have onward := (leads_name_gap blank parted).append ih
      exact .cons (skipAll_gap_cons '@') (formed.leads.append onward)

namespace AnnotationRun

variable {annotations : Text} (annotated : AnnotationRun annotations)

include annotated

theorem headD (nonempty : annotations ≠ []) (rest : Text) :
    (annotations ++ rest).headD '\x00' = '@' := by
  cases annotated with
  | nil => exact absurd rfl nonempty
  | cons => rfl

theorem headD_ne (nonempty : annotations ≠ []) (rest : Text) :
    (annotations ++ rest).headD '\x00' ≠ '/' := by
  rw [annotated.headD nonempty rest]
  decide

theorem stops (nonempty : annotations ≠ []) (rest : Text) :
    Stops isBlank (annotations ++ rest) := by
  apply Stops.of_headD
  rw [annotated.headD nonempty rest]
  rfl

theorem skipAll_append {rest : Text} (stops : Stops isBlank rest)
    (other : rest.headD '\x00' ≠ '@') : skipAll .gap (annotations ++ rest)
      = ⟨(), List.replicate annotations.length .skip, [], rest⟩ := by
  rw [annotated.leads rest, skipAll_of_ne stops other]
  simp [Run.precededBy]

end AnnotationRun

namespace Continuation

variable {kinds : KindSet} {annotations : Text} (passes : kinds.PassesAnnotations)
  (annotated : AnnotationRun annotations) (nonempty : annotations ≠ [])

include passes annotated nonempty

/-- A `/` behind annotations is not looked into. -/
theorem newLine_annotated_slash (rest : Text) : newLine kinds (annotations ++ '/' :: rest)
    = ⟨.insert, List.replicate annotations.length .skip, [], '/' :: rest⟩ := by
  have stops : Stops isBlank ('/' :: rest) := .cons rfl
  have skipped := annotated.skipAll_append stops (by simp)
  rw [newLine_of_passes (annotated.headD nonempty _) passes skipped]
  simp [Run.precededBy]

/-- What is decided behind annotations is what is decided without them. -/
theorem newLine_annotated {rest : Text} (stops : Stops isBlank rest)
    (slash : rest.headD '\x00' ≠ '/') : newLine kinds (annotations ++ rest)
      = (newLine kinds rest).precededBy (List.replicate annotations.length .skip) := by
  have start := annotated.headD nonempty rest
  by_cases again : rest.headD '\x00' = '@'
  · obtain ⟨passed, later, _, skippedRest⟩ := exists_skipAll .gap rest
    have skipped := annotated.leads rest
    rw [skippedRest] at skipped
    rw [newLine_of_passes start passes skipped, newLine_of_passes again passes skippedRest,
      Run.precededBy_precededBy]
  · have skipped := annotated.skipAll_append stops again
    have other : (rest.headD '\x00' == '/') = false := beq_eq_false_iff_ne.mpr slash
    rw [newLine_of_passes start passes skipped, newLine_of_ne kinds again, other,
      if_neg Bool.false_ne_true]

theorem afterGap_annotated {rest : Text} (stops : Stops isBlank rest)
    (slash : rest.headD '\x00' ≠ '/') : afterGap kinds true (annotations ++ rest)
      = (afterGap kinds true rest).precededBy (List.replicate annotations.length .skip) := by
  rw [afterGap_newLine kinds (annotated.headD_ne nonempty rest), afterGap_newLine kinds slash,
    newLine_annotated passes annotated nonempty stops slash]
  rfl

end Continuation

/-- The kind and the text of a token. -/
def Reading.content (reading : Reading) : TokenKind × Text := (reading.kind, reading.lexeme)

def Token.contentIn (text : Text) (token : Token) : TokenKind × Text :=
  (token.kind, token.span.token.slice text)

theorem Token.scan?_content (front text : Text) (kinds : KindSet) :
    (scan? (front ++ text) (byteSize front) kinds).map (contentIn (front ++ text))
      = (Request.reading? kinds text).map Reading.content := by
  rw [scan?_eq_reading?, Option.map_map]
  refine Option.map_congr fun reading read => ?_
  obtain ⟨rest, rfl⟩ := Request.split_of_reading? read
  have slice := slice_append (front ++ reading.trivia) reading.lexeme rest
  rw [byteSize_append, List.append_assoc] at slice
  exact congrArg (Prod.mk reading.kind) slice

namespace Request

variable {kinds : KindSet} {terminator : TokenKind} {gap annotations : Text}
  (outside : kinds.has .stringContent = false) (requested : kinds.terminator? = some terminator)
  (passes : kinds.PassesAnnotations) (blank : IsGap gap) (broken : HasLineBreak gap)
  (annotated : AnnotationRun annotations) (nonempty : annotations ≠ [])

include outside requested passes blank broken annotated nonempty

theorem reading?_annotated_slash (rest : Text) :
    reading? kinds (gap ++ (annotations ++ '/' :: rest)) = some (.nothing terminator) := by
  have decides := decision_append kinds blank (annotated.stops nonempty ('/' :: rest))
  rw [broken, afterGap_newLine kinds (annotated.headD_ne nonempty _),
    newLine_annotated_slash passes annotated nonempty rest] at decides
  exact reading?_of_insert outside requested decides rfl (unmarked_skips _)

/-- Behind annotations the same is read as without them. -/
theorem content_annotated {rest : Text} (stops : Stops isBlank rest)
    (slash : rest.headD '\x00' ≠ '/') :
    (reading? kinds (gap ++ (annotations ++ rest))).map Reading.content
      = (reading? kinds (gap ++ rest)).map Reading.content := by
  let run := (afterGap kinds true rest).andThen (follow kinds terminator)
  have starts := annotated.stops nonempty rest
  have behind : (afterGap kinds (gap.any isLineBreak) (annotations ++ rest)).andThen
      (follow kinds terminator) = run.precededBy (List.replicate annotations.length .skip) := by
    rw [broken, afterGap_annotated passes annotated nonempty stops slash, Run.precededBy_andThen]
  have plain : (afterGap kinds (gap.any isLineBreak) rest).andThen (follow kinds terminator)
      = run := by rw [broken]
  by_cases marked : .markEnd ∈ run.moves
  · have ascii := afterGap_moves_ascii outside requested stops true
    rw [reading?_of_marked outside requested blank starts behind (List.mem_append_right _ marked),
      reading?_of_marked outside requested blank stops plain marked,
      Run.reading?_precededBy_skips annotations ascii, Option.map_map, Option.map_map,
      Option.map_map]
    rfl
  · have unmarked : .markEnd ∉ (run.precededBy (List.replicate annotations.length .skip)).moves :=
      fun member => (List.mem_append.mp member).elim (unmarked_skips _) marked
    rw [reading?_of_unmarked outside requested blank starts behind unmarked,
      reading?_of_unmarked outside requested blank stops plain marked]
    rfl

end Request

/-- Where an accessor may follow, annotations at the start of a line make no difference to the kind
and the text of the token that is read on it, with one exception: before a `/` they make a
terminator be inserted. -/
theorem Token.scan?_annotated {kinds : KindSet} {terminator : TokenKind}
    (requested : kinds.terminator? = some terminator) (outside : kinds.has .stringContent = false)
    (passes : kinds.PassesAnnotations) (front : Text) {gap annotations rest : Text}
    (blank : IsGap gap) (broken : HasLineBreak gap) (annotated : AnnotationRun annotations)
    (nonempty : annotations ≠ []) (stops : Stops isBlank rest) :
    let offset := byteSize front
    let text := front ++ (gap ++ (annotations ++ rest))
    let plain := front ++ (gap ++ rest)
    (rest.head? = some '/' →
      scan? text offset kinds = some ⟨terminator, ⟨⟨offset, offset⟩, ⟨offset, offset⟩⟩⟩) ∧
    (rest.head? ≠ some '/' →
      (scan? text offset kinds).map (contentIn text)
        = (scan? plain offset kinds).map (contentIn plain)) := by
  intro offset text plain
  constructor
  · intro slash
    obtain ⟨later, rfl⟩ := List.head?_eq_some_iff.mp slash
    exact scan?_of_nothing front (Request.reading?_annotated_slash outside requested passes blank
      broken annotated nonempty later)
  · intro slash
    have other : rest.headD '\x00' ≠ '/' := fun next =>
      slash (head?_of_headD_beq (beq_iff_eq.mpr next) (by decide))
    have same := Request.content_annotated outside requested passes blank broken annotated nonempty
      stops other
    have content : (scan? text offset kinds).map (contentIn text) = _ :=
      scan?_content front (gap ++ (annotations ++ rest)) kinds
    rw [content, same]
    exact (scan?_content front (gap ++ rest) kinds).symm

/-- Safe navigation is read behind two annotations, one of them with blanks in its arguments. -/
theorem Token.scan?_annotated_safeNav :
    let kinds := KindSet.ofList [.memberSemi, .safeNav, .setter]
    let text := "é\n@A(b c)() @\r\n?.d".toList
    (scan? text 2 kinds).map (contentIn text) = some (.safeNav, "?.".toList) := by
  intro kinds text
  have empty : AnnotationParts "()".toList :=
    @AnnotationParts.arguments [] [] (by simp) (by simp) .nil
  have named : AnnotationParts "A(b c)()".toList :=
    .name rfl (by decide) (by decide)
      (@AnnotationParts.arguments "b c".toList "()".toList (by decide) (by decide) empty)
  have space : IsGap [' '] := by simp [IsGap, isBlank]
  have lineEnd : IsGap ['\r', '\n'] := by simp [IsGap, isBlank]
  have annotated : AnnotationRun ('@' :: ("A(b c)()".toList ++ ([' '] ++
      '@' :: ([] ++ (['\r', '\n'] ++ []))))) :=
    .cons named space (by simp) (.cons .nil lineEnd (by simp) .nil)
  have blank : IsGap ['\n'] := by simp [IsGap, isBlank]
  have passes : kinds.PassesAnnotations := ⟨by decide, Or.inr (by decide)⟩
  have requested : kinds.terminator? = some .memberSemi := by decide
  have same := (scan?_annotated requested (by decide) passes ['é'] blank rfl annotated (by simp)
    (.cons rfl : Stops isBlank "?.d".toList)).2 (by decide)
  have plain : (scan? "é\n?.d".toList 2 kinds).map (contentIn "é\n?.d".toList)
      = some (.safeNav, "?.".toList) := by decide +kernel
  exact same.trans plain

end ContextScan
