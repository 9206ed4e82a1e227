import CommandFile.Proofs.Readings
import CommandFile.Proofs.Segments

/-!
# Masking

A body is masked together with the other bodies of its segment, and all of them end at
the same quotation mark.  So a masked segment is the segment itself, or it has one blank
stretch between two quotation marks.  No word but blanks can stand in that stretch or
reach into it, and masking fabricates no keyword.
-/

namespace CommandFile

/-! ## Blanking out -/

/-- Blanks out the characters at hidden positions, but no line breaks. -/
def blankWhere (hidden : Nat → Bool) (text : Text) : Text :=
  text.mapIdx fun index character =>
    if character ≠ '\n' && hidden index then ' ' else character

def blanked (character : Char) : Char := if character = '\n' then '\n' else ' '

def covered (spans : List (Nat × Nat)) (index : Nat) : Bool :=
  spans.any fun span => span.1 ≤ index && index < span.2

theorem covered_iff {spans : List (Nat × Nat)} {index : Nat} :
    covered spans index = true ↔ ∃ span ∈ spans, span.1 ≤ index ∧ index < span.2 := by
  simp [covered]

theorem mask_eq_blankWhere (text : Text) :
    mask text = blankWhere (covered (bodySpans text)) text := rfl

section BlankWhere

variable {hidden other : Nat → Bool}

theorem blankWhere_append (first second : Text) :
    blankWhere hidden (first ++ second) =
      blankWhere hidden first ++
        blankWhere (fun index => hidden (index + first.length)) second :=
  List.mapIdx_append

theorem blankWhere_cons (character : Char) (rest : Text) :
    blankWhere hidden (character :: rest) =
      (if character ≠ '\n' && hidden 0 then ' ' else character) ::
        blankWhere (fun index => hidden (index + 1)) rest :=
  List.mapIdx_cons

theorem blankWhere_congr {text : Text}
    (same : ∀ index, index < text.length → hidden index = other index) :
    blankWhere hidden text = blankWhere other text := by
  rw [blankWhere, blankWhere, List.mapIdx_eq_mapIdx_iff]
  intro index inside
  rw [same index inside]

theorem blankWhere_of_visible {text : Text}
    (visible : ∀ index, index < text.length → hidden index = false) :
    blankWhere hidden text = text := by
  rw [blankWhere, List.mapIdx_eq_iff]
  intro index
  cases found : text[index]? with
  | none => rfl
  | some character =>
      have inside := (List.getElem?_eq_some_iff.mp found).1
      simp [visible index inside]

theorem blankWhere_of_hidden {text : Text}
    (all : ∀ index, index < text.length → hidden index = true) :
    blankWhere hidden text = text.map blanked := by
  rw [blankWhere, List.mapIdx_eq_iff]
  intro index
  rw [List.getElem?_map]
  cases found : text[index]? with
  | none => rfl
  | some character =>
      have inside := (List.getElem?_eq_some_iff.mp found).1
      by_cases line : character = '\n' <;> simp [blanked, all index inside, line]

theorem mem_blankWhere {text : Text} {character : Char}
    (inside : character ∈ blankWhere hidden text) : character = ' ' ∨ character ∈ text := by
  obtain ⟨index, bound, rfl⟩ := List.mem_mapIdx.mp inside
  split
  · exact .inl rfl
  · exact .inr (List.getElem_mem bound)

end BlankWhere

/-! ## Bodies of a segment -/

def bodyForms : List Form := [Form.write, Form.append]

theorem bodySpans_eq (text : Text) :
    bodySpans text =
      bodyForms.flatMap fun form =>
        (form.matcher.occurrences text).filterMap Occurrence.bodySpan? := rfl

theorem anchored_of_mem_bodyForms {form : Form} (hasBody : form ∈ bodyForms) :
    form.Anchored := by
  rcases (by simpa [bodyForms] using hasBody) with rfl | rfl
  · exact Form.anchored_ofKind .write
  · exact Form.anchored_ofKind .append

theorem read_of_mem_bodyForms {form : Form} (hasBody : form ∈ bodyForms) :
    form.read = Form.readContent := by
  rcases (by simpa [bodyForms] using hasBody) with rfl | rfl <;> rfl

def segmentSpans (segment : Text) : List (Nat × Nat) :=
  bodyForms.filterMap fun form => (form.found? segment).bind Occurrence.bodySpan?

def maskSegment (segment : Text) : Text := blankWhere (covered (segmentSpans segment)) segment

/-- A span between two quotation marks, the second of which ends the segment. -/
def Quotes (segment : Text) (span : Nat × Nat) : Prop :=
  ∃ before body, segment = before ++ '"' :: (body ++ ['"']) ∧
    span = (before.length + 1, before.length + 1 + body.length)

theorem Quotes.snd_lt {segment : Text} {span : Nat × Nat} (quotes : Quotes segment span) :
    span.1 ≤ span.2 ∧ span.2 + 1 = segment.length := by
  obtain ⟨before, body, rfl, rfl⟩ := quotes
  simp only [List.length_append, List.length_cons, List.length_nil]
  omega

def EndsInOpening (text : Text) : Prop :=
  ∃ form ∈ bodyForms, ∃ before blank path opening,
    text = before ++ form.keyword ++ blank :: (path ++ opening) ∧
      Text.isBlankChar blank = true ∧ Form.IsPath path ∧ Form.IsOpening opening

theorem bodySpan?_behindKeyword {form : Form} (hasBody : form ∈ bodyForms) (before : Text)
    {inner : Text} {inside : List Capture} (read : form.read inner = some inside) :
    ∃ opened body,
      (Occurrence.mk before.length (form.behindKeyword inside)).bodySpan? =
        some (opened.length, opened.length + body.length) ∧
      EndsInOpening opened ∧ before ++ form.keyword ++ inner = opened ++ (body ++ ['"']) := by
  rw [read_of_mem_bodyForms hasBody] at read
  obtain ⟨blank, path, opening, body, rfl, isBlank, isPath, isOpening, rfl⟩ :=
    Form.readContent_sound read
  refine ⟨before ++ form.keyword ++ blank :: (path ++ opening), body, ?_,
    ⟨form, hasBody, before, blank, path, opening, rfl, isBlank, isPath, isOpening⟩, by simp⟩
  have found : (Occurrence.mk before.length (form.behindKeyword
      [⟨.path, 1, path⟩, ⟨.body, 1 + path.length + opening.length, body⟩])).bodySpan? =
      some (before.length + (form.keyword.length + (1 + path.length + opening.length)),
        before.length + (form.keyword.length + (1 + path.length + opening.length)) +
          body.length) := rfl
  have length : (before ++ form.keyword ++ blank :: (path ++ opening)).length =
      before.length + (form.keyword.length + (1 + path.length + opening.length)) := by
    simp only [List.length_append, List.length_cons]
    omega
  rw [found, length]

theorem opened_of_mem_segmentSpans {segment : Text} {span : Nat × Nat}
    (inside : span ∈ segmentSpans segment) :
    ∃ opened body, EndsInOpening opened ∧ segment = opened ++ (body ++ ['"']) ∧
      span = (opened.length, opened.length + body.length) := by
  obtain ⟨form, hasBody, bound⟩ := List.mem_filterMap.mp inside
  obtain ⟨occurrence, found, spans⟩ := Option.bind_eq_some_iff.mp bound
  obtain ⟨before, inner, captures, rfl, read, rfl⟩ := Form.found?_sound found
  obtain ⟨opened, body, spans', isOpened, whole⟩ := bodySpan?_behindKeyword hasBody before read
  exact ⟨opened, body, isOpened, whole, Option.some.inj (spans.symm.trans spans')⟩

theorem quotes_of_mem_segmentSpans {segment : Text} {span : Nat × Nat}
    (inside : span ∈ segmentSpans segment) : Quotes segment span := by
  obtain ⟨opened, body, isOpened, rfl, rfl⟩ := opened_of_mem_segmentSpans inside
  obtain ⟨form, -, before, blank, path, opening, rfl, -, -, isOpening⟩ := isOpened
  obtain ⟨space, gap, -, -, -, rfl⟩ := isOpening
  refine ⟨before ++ form.keyword ++ blank :: (path ++ space :: (Form.contentWord ++ gap)), body,
    by simp, ?_⟩
  simp
  omega

theorem mem_bodySpans_segment {segment : Text} (free : terminator ∉ segment) (rest : Text)
    (span : Nat × Nat) :
    span ∈ bodySpans (segment ++ terminator :: rest) ↔
      span ∈ segmentSpans segment ∨
        ∃ later ∈ bodySpans rest,
          span = (segment.length + 1 + later.1, segment.length + 1 + later.2) := by
  simp only [bodySpans_eq, List.mem_flatMap, segmentSpans, List.mem_filterMap]
  constructor
  · rintro ⟨form, hasBody, occurrence, inside, spans⟩
    rw [(anchored_of_mem_bodyForms hasBody).occurrences_segment free] at inside
    rcases List.mem_append.mp inside with here | later
    · rw [Option.mem_toList] at here
      exact .inl ⟨form, hasBody, by rw [here]; exact spans⟩
    · obtain ⟨inner, inRest, rfl⟩ := List.mem_map.mp later
      rw [Occurrence.bodySpan?_shift] at spans
      obtain ⟨innerSpan, innerSpans, rfl⟩ := Option.map_eq_some_iff.mp spans
      exact .inr ⟨innerSpan, ⟨form, hasBody, inner, inRest, innerSpans⟩, rfl⟩
  · rintro (⟨form, hasBody, bound⟩ | ⟨span, ⟨form, hasBody, occurrence, inside, spans⟩, rfl⟩)
    · obtain ⟨occurrence, found, spans⟩ := Option.bind_eq_some_iff.mp bound
      refine ⟨form, hasBody, occurrence, ?_, spans⟩
      rw [(anchored_of_mem_bodyForms hasBody).occurrences_segment free]
      exact List.mem_append_left _ (Option.mem_toList.mpr found)
    · refine ⟨form, hasBody, occurrence.shift (segment.length + 1), ?_, ?_⟩
      · rw [(anchored_of_mem_bodyForms hasBody).occurrences_segment free]
        exact List.mem_append_right _ (List.mem_map_of_mem inside)
      · rw [Occurrence.bodySpan?_shift, spans]
        rfl

theorem covered_segment {segment : Text} (free : terminator ∉ segment) (rest : Text)
    {index : Nat} (inside : index < segment.length + 1) :
    covered (bodySpans (segment ++ terminator :: rest)) index =
      covered (segmentSpans segment) index := by
  rw [Bool.eq_iff_iff, covered_iff, covered_iff]
  constructor
  · rintro ⟨span, member, lower, upper⟩
    rcases (mem_bodySpans_segment free rest span).mp member with here | ⟨later, -, rfl⟩
    · exact ⟨span, here, lower, upper⟩
    · simp only at lower
      omega
  · rintro ⟨span, here, bounds⟩
    exact ⟨span, (mem_bodySpans_segment free rest span).mpr (.inl here), bounds⟩

theorem covered_behind_segment {segment : Text} (free : terminator ∉ segment) (rest : Text)
    (index : Nat) :
    covered (bodySpans (segment ++ terminator :: rest)) (index + (segment.length + 1)) =
      covered (bodySpans rest) index := by
  rw [Bool.eq_iff_iff, covered_iff, covered_iff]
  constructor
  · rintro ⟨span, member, lower, upper⟩
    rcases (mem_bodySpans_segment free rest span).mp member with here | ⟨later, inRest, rfl⟩
    · have := (quotes_of_mem_segmentSpans here).snd_lt
      omega
    · simp only at lower upper
      exact ⟨later, inRest, by omega, by omega⟩
  · rintro ⟨span, inRest, lower, upper⟩
    refine ⟨_, (mem_bodySpans_segment free rest _).mpr (.inr ⟨span, inRest, rfl⟩), ?_, ?_⟩
    · simp only
      omega
    · simp only
      omega

theorem covered_end (segment : Text) :
    covered (segmentSpans segment) segment.length = false := by
  rw [Bool.eq_false_iff, Ne, covered_iff]
  rintro ⟨span, inside, -, upper⟩
  have := (quotes_of_mem_segmentSpans inside).snd_lt
  omega

theorem mask_segment {segment : Text} (free : terminator ∉ segment) (rest : Text) :
    mask (segment ++ terminator :: rest) =
      maskSegment segment ++ terminator :: mask rest := by
  have here : blankWhere (covered (bodySpans (segment ++ terminator :: rest))) segment =
      maskSegment segment :=
    blankWhere_congr fun index inside => covered_segment free rest (by omega)
  have atEnd : covered (bodySpans (segment ++ terminator :: rest)) (0 + segment.length) =
      false := by
    rw [Nat.zero_add, covered_segment free rest (by omega), covered_end]
  have behind : blankWhere (fun index => covered (bodySpans (segment ++ terminator :: rest))
      (index + 1 + segment.length)) rest = mask rest :=
    blankWhere_congr fun index _ => by
      rw [Nat.add_assoc, Nat.add_comm 1, covered_behind_segment free rest index]
      rfl
  rw [mask_eq_blankWhere, blankWhere_append, blankWhere_cons, here, atEnd, behind]
  simp

theorem bodySpans_of_unfinished {text : Text} (free : terminator ∉ text) : bodySpans text = [] := by
  simp [bodySpans_eq, Form.occurrences_of_unfinished _ free]

theorem mask_of_unfinished {text : Text} (free : terminator ∉ text) : mask text = text := by
  rw [mask_eq_blankWhere, bodySpans_of_unfinished free]
  exact blankWhere_of_visible fun _ _ => rfl

theorem segmentSpans_newline (segment : Text) :
    segmentSpans ('\n' :: segment) =
      (segmentSpans segment).map fun span => (1 + span.1, 1 + span.2) := by
  have shifted (form : Form) (hasBody : form ∈ bodyForms) :
      (form.found? ('\n' :: segment)).bind Occurrence.bodySpan? =
        ((form.found? segment).bind Occurrence.bodySpan?).map
          fun span => (1 + span.1, 1 + span.2) := by
    rw [(anchored_of_mem_bodyForms hasBody).found?_newline]
    cases form.found? segment with
    | none => rfl
    | some occurrence => exact occurrence.bodySpan?_shift 1
  rw [segmentSpans, segmentSpans, List.map_filterMap]
  exact List.filterMap_congr shifted

theorem maskSegment_newline (segment : Text) :
    maskSegment ('\n' :: segment) = '\n' :: maskSegment segment := by
  rw [maskSegment, blankWhere_cons]
  refine congrArg ('\n' :: ·) (blankWhere_congr fun index _ => ?_)
  rw [segmentSpans_newline, Bool.eq_iff_iff, covered_iff, covered_iff]
  simp [Nat.add_comm]

theorem free_maskSegment {segment : Text} (free : terminator ∉ segment) :
    terminator ∉ maskSegment segment := by
  intro inside
  rcases mem_blankWhere inside with blank | inside
  · exact absurd blank (by decide)
  · exact free inside

theorem mask_append {first : Text} (complete : first.Complete) (second : Text) :
    mask (first ++ second) = mask first ++ mask second := by
  induction complete using Text.Complete.induction with
  | empty => rfl
  | ended segment rest free completeRest ih =>
      rw [List.append_assoc, List.cons_append, mask_segment free, mask_segment free, ih]
      simp

theorem complete_mask {text : Text} (complete : text.Complete) : (mask text).Complete := by
  induction complete using Text.Complete.induction with
  | empty => exact Text.complete_nil
  | ended segment rest free completeRest ih =>
      rw [mask_segment free]
      exact Text.complete_segment.mpr ih

/-! ## The shape of a masked segment -/

theorem exists_widest {segment : Text} {spans : List (Nat × Nat)}
    (quotes : ∀ span ∈ spans, Quotes segment span) (some : spans ≠ []) :
    ∃ span ∈ spans, ∀ index, covered spans index = covered [span] index := by
  induction spans with
  | nil => exact absurd rfl some
  | cons first spans ih =>
      by_cases last : spans = []
      · subst last
        exact ⟨first, List.mem_singleton_self first, fun _ => rfl⟩
      · obtain ⟨second, inside, widest⟩ :=
          ih (fun span inside => quotes span (List.mem_cons_of_mem _ inside)) last
        have firstEnd := (quotes first List.mem_cons_self).snd_lt
        have secondEnd := (quotes second (List.mem_cons_of_mem _ inside)).snd_lt
        have split (index : Nat) : covered (first :: spans) index =
            (covered [first] index || covered [second] index) := by
          rw [← widest index]
          simp [covered]
        -- Both spans end at the same place, so the one that begins first covers the other.
        rcases Nat.le_total first.1 second.1 with earlier | later
        · refine ⟨first, List.mem_cons_self, fun index => ?_⟩
          rw [split, Bool.eq_iff_iff]
          simp [covered]
          omega
        · refine ⟨second, List.mem_cons_of_mem _ inside, fun index => ?_⟩
          rw [split, Bool.eq_iff_iff]
          simp [covered]
          omega

theorem blankWhere_quoted (before body : Text) :
    blankWhere (covered [(before.length + 1, before.length + 1 + body.length)])
        (before ++ '"' :: (body ++ ['"'])) =
      before ++ '"' :: (body.map blanked ++ ['"']) := by
  have start : blankWhere (covered [(before.length + 1, before.length + 1 + body.length)])
      before = before := by
    refine blankWhere_of_visible fun index inside => ?_
    simp [covered]
    omega
  have middle : blankWhere (fun index =>
      covered [(before.length + 1, before.length + 1 + body.length)]
        (index + 1 + before.length)) body = body.map blanked := by
    refine blankWhere_of_hidden fun index inside => ?_
    simp [covered]
    omega
  rw [blankWhere_append, start, blankWhere_cons, blankWhere_append, middle, blankWhere_cons]
  simp [covered, blankWhere]
  omega

theorem maskSegment_cases (segment : Text) :
    maskSegment segment = segment ∨
      ∃ before body, segment = before ++ '"' :: (body ++ ['"']) ∧
        maskSegment segment = before ++ '"' :: (body.map blanked ++ ['"']) := by
  by_cases none : segmentSpans segment = []
  · refine .inl (blankWhere_of_visible fun index _ => ?_)
    rw [none]
    rfl
  · obtain ⟨span, inside, widest⟩ :=
      exists_widest (fun span inside => quotes_of_mem_segmentSpans inside) none
    obtain ⟨before, body, rfl, rfl⟩ := quotes_of_mem_segmentSpans inside
    refine .inr ⟨before, body, rfl, ?_⟩
    rw [maskSegment, blankWhere_congr fun index _ => widest index, blankWhere_quoted]

/-! ## Words in a masked text -/

/-- A word that can be a marker: it holds no quotation mark and more than blanks. -/
def IsMarker (word : Text) : Prop :=
  '"' ∉ word ∧ terminator ∉ word ∧ ∃ character ∈ word, character ≠ ' ' ∧ character ≠ '\n'

theorem IsMarker.not_infix_blanked {word : Text} (isMarker : IsMarker word) (body : Text) :
    ¬ word <:+: body.map blanked := by
  intro inside
  obtain ⟨-, -, character, member, solid, sameLine⟩ := isMarker
  obtain ⟨hidden, -, same⟩ := List.mem_map.mp (inside.mem member)
  unfold blanked at same
  split at same
  · exact sameLine same.symm
  · exact solid same.symm

theorem IsMarker.infix_of_maskSegment {word segment : Text} (isMarker : IsMarker word)
    (inside : word <:+: maskSegment segment) : word <:+: segment := by
  rcases maskSegment_cases segment with same | ⟨before, body, whole, masked⟩
  · rwa [same] at inside
  · rw [masked] at inside
    rcases Text.infix_beside isMarker.1 inside with start | rest
    · rw [whole]
      exact List.infix_append_of_infix_left start
    · rcases Text.infix_beside isMarker.1 rest with hidden | last
      · exact absurd hidden (isMarker.not_infix_blanked body)
      · obtain ⟨-, -, character, member, -⟩ := isMarker
        simp [List.infix_nil.mp last] at member

theorem IsMarker.infix_of_mask {word : Text} (isMarker : IsMarker word) {text : Text}
    (inside : word <:+: mask text) : word <:+: text := by
  induction text using Text.segmentInduction with
  | unfinished text free => rwa [mask_of_unfinished free] at inside
  | ended segment rest free ih =>
      rw [mask_segment free] at inside
      rcases Text.infix_beside isMarker.2.1 inside with here | later
      · exact List.infix_append_of_infix_left (isMarker.infix_of_maskSegment here)
      · exact List.infix_append_of_infix_right (List.infix_cons (ih later))

end CommandFile
