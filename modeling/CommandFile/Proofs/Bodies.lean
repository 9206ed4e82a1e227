import CommandFile.Proofs.Nesting
import Mathlib.Data.Nat.Find

/-!
# Texts that differ in bodies

Where the bodies of a segment lie depends on what leads up to the first of them and on the
closing quotation mark, and not on what stands in between.  So two texts that differ in
bodies alone look the same once they are masked.
-/

namespace CommandFile

/-! ## Where bodies begin -/

theorem Form.IsOpening.exists_quote {opening : Text} (isOpening : Form.IsOpening opening) :
    ∃ inside, '"' ∉ inside ∧ opening = inside ++ ['"'] := by
  obtain ⟨blank, gap, isBlank, gapBlank, -, rfl⟩ := isOpening
  refine ⟨blank :: (Form.contentWord ++ gap), ?_, by simp⟩
  have solid : Text.isBlankChar '"' = false := by decide
  rw [List.mem_cons, List.mem_append, not_or, not_or]
  refine ⟨?_, by decide, ?_⟩
  · rintro rfl
    simp [solid] at isBlank
  · intro inside
    rw [gapBlank _ inside] at solid
    nomatch solid

theorem length_opening_le {first second opening other rest last : Text}
    (isOpening : Form.IsOpening opening) (isOpeningToo : Form.IsOpening other)
    (same : first ++ (opening ++ rest) = second ++ (other ++ last))
    (earlier : first.length ≤ second.length) :
    (first ++ opening).length ≤ (second ++ other).length := by
  obtain ⟨inside, unquoted, rfl⟩ := isOpening.exists_quote
  obtain ⟨insideToo, -, rfl⟩ := isOpeningToo.exists_quote
  by_contra longer
  simp only [List.length_append, List.length_singleton] at longer
  have quote : (second ++ (insideToo ++ ['"'] ++ last))[second.length + insideToo.length]? =
      some '"' := by
    simp
  rw [← same, List.getElem?_append_right (by omega), List.append_assoc,
    List.getElem?_append_left (by omega)] at quote
  exact unquoted (List.mem_of_getElem? quote)

theorem bodySpan_le_opening {form : Form} (hasBody : form ∈ bodyForms) {segment : Text}
    {occurrence : Occurrence} (found : form.found? segment = some occurrence) {span : Nat × Nat}
    (spans : occurrence.bodySpan? = some span) {before opening body : Text}
    (isOpening : Form.IsOpening opening) (whole : segment = before ++ (opening ++ body ++ ['"']))
    (room : occurrence.start + form.keyword.length + 2 ≤ before.length) :
    span.1 ≤ (before ++ opening).length := by
  obtain ⟨start, inner, captures, wholeToo, read, rfl⟩ := Form.found?_sound found
  rw [read_of_mem_bodyForms hasBody] at read
  obtain ⟨blank, path, own, ownBody, rfl, -, -, isOwn, rfl, shortest⟩ :=
    Form.readContent_shortest read
  obtain rfl := Option.some.inj spans
  simp only at room ⊢
  rcases Nat.lt_or_ge before.length (start ++ form.keyword ++ blank :: path).length with
    inPath | behindPath
  · -- The path would end at the opening that stands in it.
    simp only [List.length_append, List.length_cons] at inPath
    obtain ⟨head, tail, rfl, cut⟩ : ∃ head tail, path = head ++ tail ∧
        before.length = start.length + form.keyword.length + 1 + head.length := by
      let taken := before.length - (start.length + form.keyword.length + 1)
      refine ⟨path.take taken, path.drop taken, (List.take_append_drop taken path).symm, ?_⟩
      rw [List.length_take]
      omega
    rw [List.length_append] at inPath
    have present : head ≠ [] := List.length_pos_iff.mp (by omega)
    have presentToo : tail ≠ [] := List.length_pos_iff.mp (by omega)
    have stays := shortest head tail present presentToo rfl
    have same : (start ++ form.keyword ++ blank :: head) ++
        (tail ++ (own ++ ownBody ++ ['"'])) = before ++ (opening ++ body ++ ['"']) := by
      rw [← whole, wholeToo]
      simp
    have rest := List.append_inj_right same (by
      simp only [List.length_append, List.length_cons]
      omega)
    rw [rest, Form.announcedBody?_opening isOpening body] at stays
    nomatch stays
  · have same : (start ++ form.keyword ++ blank :: path) ++ (own ++ (ownBody ++ ['"'])) =
        before ++ (opening ++ (body ++ ['"'])) := by
      rw [← List.append_assoc opening, ← whole, wholeToo]
      simp
    have ends := length_opening_le isOwn isOpening same behindPath
    simp only [List.length_append, List.length_cons] at ends ⊢
    omega

theorem exists_span_of_opened {opened : Text} (isOpened : EndsInOpening opened) (body : Text) :
    ∃ span ∈ segmentSpans (opened ++ (body ++ ['"'])), span.1 ≤ opened.length := by
  obtain ⟨form, hasBody, before, blank, path, opening, rfl, isBlank, isPath, isOpening⟩ := isOpened
  obtain ⟨captures, read⟩ := Form.exists_readContent isBlank isPath isOpening body
  rw [← read_of_mem_bodyForms hasBody] at read
  obtain ⟨occurrence, found, start⟩ :=
    (anchored_of_mem_bodyForms hasBody).exists_found?_of_read before read
  obtain ⟨span, spans⟩ := exists_bodySpan_of_found hasBody found
  have whole : before ++ form.keyword ++ blank :: (path ++ opening) ++ (body ++ ['"']) =
      before ++ form.keyword ++ blank :: (path ++ (opening ++ body ++ ['"'])) := by
    simp
  rw [whole]
  refine ⟨span, mem_segmentSpans hasBody found spans, ?_⟩
  have pathLength := List.length_pos_iff.mpr isPath.1
  have ends := bodySpan_le_opening hasBody found spans isOpening
    (show _ = (before ++ form.keyword ++ blank :: path) ++ (opening ++ body ++ ['"']) by simp)
    (by simp only [List.length_append, List.length_cons]; omega)
  simpa using ends

theorem covered_segmentSpans_iff {segment : Text} {index : Nat} :
    covered (segmentSpans segment) index = true ↔
      ∃ opened body, EndsInOpening opened ∧ segment = opened ++ (body ++ ['"']) ∧
        opened.length ≤ index ∧ index + 1 < segment.length := by
  rw [covered_iff]
  constructor
  · rintro ⟨span, member, lower, upper⟩
    obtain ⟨opened, body, isOpened, rfl, rfl⟩ := opened_of_mem_segmentSpans member
    refine ⟨opened, body, isOpened, rfl, lower, ?_⟩
    simp only [List.length_append, List.length_singleton] at upper ⊢
    omega
  · rintro ⟨opened, body, isOpened, rfl, lower, upper⟩
    obtain ⟨span, member, start⟩ := exists_span_of_opened isOpened body
    have ends := (quotes_of_mem_segmentSpans member).snd_lt
    exact ⟨span, member, by omega, by omega⟩

/-! ## Texts that differ at hidden positions -/

/-- The texts differ at hidden positions only, and where they do neither has a terminator
or a line break. -/
structure DifferWhere (hidden : Nat → Bool) (first second : Text) : Prop where
  length_eq : first.length = second.length
  hidden_of_ne : ∀ index < first.length, first[index]? ≠ second[index]? → hidden index = true
  unmarked : ∀ index < first.length, first[index]? ≠ second[index]? →
    first[index]? ∉ [some terminator, some '\n'] ∧ second[index]? ∉ [some terminator, some '\n']

namespace DifferWhere

variable {hidden : Nat → Bool} {first second : Text}

theorem symm (differ : DifferWhere hidden first second) : DifferWhere hidden second first where
  length_eq := differ.length_eq.symm
  hidden_of_ne index inside other :=
    differ.hidden_of_ne index (differ.length_eq ▸ inside) other.symm
  unmarked index inside other :=
    (differ.unmarked index (differ.length_eq ▸ inside) other.symm).symm

theorem getElem?_eq (differ : DifferWhere hidden first second) {index : Nat}
    (visible : hidden index = false) : first[index]? = second[index]? := by
  by_contra other
  by_cases inside : index < first.length
  · rw [differ.hidden_of_ne index inside other] at visible
    nomatch visible
  · rw [List.getElem?_eq_none (by omega), List.getElem?_eq_none (by
      have := differ.length_eq
      omega)] at other
    exact other rfl

theorem getElem?_mark (differ : DifferWhere hidden first second) {index : Nat} {mark : Char}
    (isMark : some mark ∈ [some terminator, some '\n']) (here : first[index]? = some mark) :
    second[index]? = some mark := by
  have inside := (List.getElem?_eq_some_iff.mp here).1
  by_contra other
  exact (differ.unmarked index inside fun same => other (same.symm.trans here)).1 (here ▸ isMark)

theorem append {rest last : Text} (differ : DifferWhere hidden (first ++ rest) (second ++ last))
    (same : first.length = second.length) :
    DifferWhere hidden first second ∧
      DifferWhere (fun index => hidden (index + first.length)) rest last := by
  have lengths := differ.length_eq
  simp only [List.length_append] at lengths
  have left (index : Nat) (inside : index < first.length) :
      (first ++ rest)[index]? = first[index]? ∧ (second ++ last)[index]? = second[index]? :=
    ⟨List.getElem?_append_left inside, List.getElem?_append_left (same ▸ inside)⟩
  have right (index : Nat) :
      (first ++ rest)[index + first.length]? = rest[index]? ∧
        (second ++ last)[index + first.length]? = last[index]? := by
    constructor
    · rw [List.getElem?_append_right (by omega), Nat.add_sub_cancel]
    · rw [List.getElem?_append_right (by omega), same, Nat.add_sub_cancel]
  constructor
  · constructor
    · exact same
    · intro index inside other
      rw [← (left index inside).1, ← (left index inside).2] at other
      exact differ.hidden_of_ne index (by rw [List.length_append]; omega) other
    · intro index inside other
      rw [← (left index inside).1, ← (left index inside).2] at other ⊢
      exact differ.unmarked index (by rw [List.length_append]; omega) other
  · constructor
    · omega
    · intro index inside other
      rw [← (right index).1, ← (right index).2] at other
      exact differ.hidden_of_ne _ (by rw [List.length_append]; omega) other
    · intro index inside other
      rw [← (right index).1, ← (right index).2] at other ⊢
      exact differ.unmarked _ (by rw [List.length_append]; omega) other

theorem congr {other : Nat → Bool} (differ : DifferWhere hidden first second)
    (same : ∀ index < first.length, hidden index = other index) :
    DifferWhere other first second where
  length_eq := differ.length_eq
  hidden_of_ne index inside differs :=
    (same index inside).symm.trans (differ.hidden_of_ne index inside differs)
  unmarked := differ.unmarked

theorem eq_of_visible (differ : DifferWhere hidden first second)
    (visible : ∀ index < first.length, hidden index = false) : first = second := by
  refine List.ext_getElem? fun index => ?_
  by_contra other
  have inside : index < first.length := by
    by_contra outside
    have := differ.length_eq
    rw [List.getElem?_eq_none (by omega), List.getElem?_eq_none (by omega)] at other
    exact other rfl
  exact other (differ.getElem?_eq (visible index inside))

/-- Where nothing is hidden before a body nor behind it, the other text has a body there
too. -/
theorem exists_body (differ : DifferWhere hidden first second) {opened body : Text}
    (whole : first = opened ++ (body ++ ['"']))
    (visible : ∀ index < opened.length, hidden index = false)
    (last : ∀ index, index + 1 = first.length → hidden index = false) :
    ∃ other, second = opened ++ (other ++ ['"']) := by
  subst whole
  have lengths := differ.length_eq
  simp only [List.length_append, List.length_singleton] at lengths last
  obtain ⟨start, middle, ending, rfl, startLength, endingLength⟩ :
      ∃ start middle ending, second = start ++ (middle ++ ending) ∧
        opened.length = start.length ∧ ending.length = 1 := by
    refine ⟨second.take opened.length, (second.drop opened.length).take body.length,
      (second.drop opened.length).drop body.length, ?_, ?_, ?_⟩
    · rw [List.take_append_drop, List.take_append_drop]
    · rw [List.length_take]
      omega
    · simp only [List.length_drop]
      omega
  obtain ⟨atStart, behind⟩ := differ.append startLength
  simp only [List.length_append] at lengths
  obtain ⟨-, atEnd⟩ := behind.append (show body.length = middle.length by omega)
  obtain rfl := atStart.eq_of_visible visible
  have same := atEnd.eq_of_visible fun index inside =>
    last _ (by
      rw [List.length_singleton] at inside
      omega)
  exact ⟨middle, by rw [same]⟩

theorem exists_ended {segment rest : Text}
    (differ : DifferWhere hidden (segment ++ terminator :: rest) second) :
    ∃ other last, second = other ++ terminator :: last ∧ other.length = segment.length ∧
      DifferWhere hidden segment other ∧
      DifferWhere (fun index => hidden (index + (segment.length + 1))) rest last := by
  have ended : second[segment.length]? = some terminator :=
    differ.getElem?_mark (by decide) (by simp)
  obtain ⟨inside, ended⟩ := List.getElem?_eq_some_iff.mp ended
  have cut : second = second.take segment.length ++
      ([terminator] ++ second.drop (segment.length + 1)) := by
    rw [← ended, List.singleton_append, ← List.drop_eq_getElem_cons, List.take_append_drop]
  have length : segment.length = (second.take segment.length).length := by
    rw [List.length_take]
    omega
  rw [cut] at differ
  obtain ⟨here, behind⟩ := differ.append length
  obtain ⟨-, rests⟩ := behind.append (show [terminator].length = [terminator].length from rfl)
  refine ⟨_, _, cut, length.symm, here, rests.congr fun index _ => ?_⟩
  rw [List.length_singleton, Nat.add_assoc, Nat.add_comm 1]

theorem free (differ : DifferWhere hidden first second) (free : terminator ∉ first) :
    terminator ∉ second := by
  intro inside
  obtain ⟨index, here⟩ := List.getElem?_of_mem inside
  exact free (List.mem_of_getElem? (differ.symm.getElem?_mark (by decide) here))

end DifferWhere

/-! ## Masks of texts that differ in bodies -/

theorem covered_upward {segment : Text} {index later : Nat}
    (hidden : covered (segmentSpans segment) index = true) (le : index ≤ later)
    (inside : later + 1 < segment.length) : covered (segmentSpans segment) later = true := by
  obtain ⟨opened, body, isOpened, whole, lower, -⟩ := covered_segmentSpans_iff.mp hidden
  exact covered_segmentSpans_iff.mpr ⟨opened, body, isOpened, whole, by omega, inside⟩

theorem covered_last {segment : Text} {index : Nat} (last : index + 1 = segment.length) :
    covered (segmentSpans segment) index = false := by
  cases hidden : covered (segmentSpans segment) index with
  | false => rfl
  | true =>
      obtain ⟨opened, body, -, -, -, inside⟩ := covered_segmentSpans_iff.mp hidden
      omega

theorem exists_first_body {segment : Text} {index : Nat}
    (hidden : covered (segmentSpans segment) index = true) :
    ∃ opened body, EndsInOpening opened ∧ segment = opened ++ (body ++ ['"']) ∧
      opened.length ≤ index ∧
      ∀ before < opened.length, covered (segmentSpans segment) before = false := by
  have some : ∃ position, covered (segmentSpans segment) position = true := ⟨index, hidden⟩
  obtain ⟨opened, body, isOpened, whole, lower, -⟩ :=
    covered_segmentSpans_iff.mp (Nat.find_spec some)
  refine ⟨opened, body, isOpened, whole, lower.trans (Nat.find_min' some hidden), ?_⟩
  intro before earlier
  exact Bool.eq_false_iff.mpr (Nat.find_min some (Nat.lt_of_lt_of_le earlier lower))

theorem covered_of_differ {segment other : Text}
    (differ : DifferWhere (covered (segmentSpans segment)) segment other) (index : Nat) :
    covered (segmentSpans other) index = covered (segmentSpans segment) index := by
  rw [Bool.eq_iff_iff]
  constructor
  · intro hidden
    obtain ⟨opened, body, isOpened, whole, lower, inside⟩ := covered_segmentSpans_iff.mp hidden
    rw [← differ.length_eq] at inside
    by_cases visible : ∀ before < opened.length, covered (segmentSpans segment) before = false
    · obtain ⟨own, wholeToo⟩ := differ.symm.exists_body whole visible fun _ last =>
        covered_last (last.trans differ.length_eq.symm)
      exact covered_segmentSpans_iff.mpr ⟨opened, own, isOpened, wholeToo, lower, inside⟩
    · -- A body of the first text begins before this one, and both end at the last quote.
      simp only [not_forall, Bool.not_eq_false] at visible
      obtain ⟨before, earlier, hiddenBefore⟩ := visible
      exact covered_upward hiddenBefore (by omega) inside
  · intro hidden
    obtain ⟨opened, body, isOpened, whole, lower, visible⟩ := exists_first_body hidden
    obtain ⟨own, wholeToo⟩ := differ.exists_body whole visible fun _ last => covered_last last
    obtain ⟨-, -, -, -, -, inside⟩ := covered_segmentSpans_iff.mp hidden
    exact covered_segmentSpans_iff.mpr
      ⟨opened, own, isOpened, wholeToo, lower, differ.length_eq ▸ inside⟩

theorem maskSegment_of_differ {segment other : Text}
    (differ : DifferWhere (covered (segmentSpans segment)) segment other) :
    maskSegment other = maskSegment segment := by
  refine List.ext_getElem? fun index => ?_
  rw [maskSegment, maskSegment, getElem?_blankWhere, getElem?_blankWhere, covered_of_differ differ]
  cases hidden : covered (segmentSpans segment) index with
  | false => rw [differ.getElem?_eq hidden]
  | true =>
      by_cases same : segment[index]? = other[index]?
      · rw [same]
      · obtain ⟨-, -, -, -, -, inside⟩ := covered_segmentSpans_iff.mp hidden
        have breaks := differ.unmarked index (by omega) same
        rw [List.getElem?_eq_getElem (show index < segment.length by omega),
          List.getElem?_eq_getElem (show index < other.length by
            rw [← differ.length_eq]
            omega)] at breaks ⊢
        simp only [List.mem_cons, Option.some.injEq, List.not_mem_nil, or_false, not_or] at breaks
        simp [breaks.1.2, breaks.2.2]

theorem mask_of_differ {text other : Text}
    (differ : DifferWhere (covered (bodySpans text)) text other) : mask other = mask text := by
  induction text using Text.segmentInduction generalizing other with
  | unfinished text free =>
      rw [bodySpans_of_unfinished free] at differ
      rw [differ.eq_of_visible fun _ _ => rfl]
  | ended segment rest free ih =>
      obtain ⟨segmentToo, restToo, rfl, -, here, behind⟩ := differ.exists_ended
      have segments := here.congr fun index inside => covered_segment free rest (by omega)
      have rests := behind.congr fun index _ => covered_behind_segment free rest index
      rw [mask_segment free, mask_segment (here.free free), maskSegment_of_differ segments,
        ih rests]

end CommandFile
