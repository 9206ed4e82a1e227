import CommandFile.Proofs.Extraction

/-!
# Statements inside bodies

A body is content.  A kind without a body reads blanks where bodies are, so none of its
statements starts there.  The two kinds with a body read the text as it is: one of them
can find a statement that is quoted in a body of the other, and then both bodies end at
the same quotation mark.
-/

namespace CommandFile

def Kind.occurrences (kind : Kind) (text : Text) : List Occurrence :=
  (Form.ofKind kind).matcher.occurrences ((Pattern.ofKind kind).visibleText text)

theorem Kind.rows_eq_map_occurrences (kind : Kind) (text : Text) :
    kind.rows text = (kind.occurrences text).map Occurrence.row := rfl

/-! ## Where occurrences start -/

theorem getElem?_blankWhere (hidden : Nat → Bool) (text : Text) (index : Nat) :
    (blankWhere hidden text)[index]? =
      text[index]?.map fun character =>
        if character ≠ '\n' && hidden index then ' ' else character :=
  List.getElem?_mapIdx

theorem Form.exists_letter_of_ofKind (kind : Kind) :
    ∃ letter rest, (ofKind kind).keyword = letter :: rest ∧ letter ≠ ' ' ∧ letter ≠ '\n' := by
  cases kind <;> exact ⟨_, _, rfl, by decide, by decide⟩

theorem Form.start_lt_of_found {form : Form} (worded : form.keyword ≠ []) {segment : Text}
    {occurrence : Occurrence} (found : form.found? segment = some occurrence) :
    occurrence.start < segment.length := by
  obtain ⟨before, inner, captures, rfl, -, rfl⟩ := Form.found?_sound found
  have := List.length_pos_iff.mpr worded
  simp only [List.length_append]
  omega

namespace Kind

variable {kind : Kind}

@[simp] theorem length_visible (segment : Text) :
    (kind.visible segment).length = segment.length := by
  unfold visible
  split
  · rfl
  · exact List.length_mapIdx

theorem occurrences_segment {segment : Text} (free : terminator ∉ segment) (rest : Text) :
    kind.occurrences (segment ++ terminator :: rest) =
      ((Form.ofKind kind).found? (kind.visible segment)).toList ++
        (kind.occurrences rest).map (·.shift (segment.length + 1)) := by
  rw [occurrences, kind.visibleText_segment free,
    (Form.anchored_ofKind kind).occurrences_segment (kind.free_visible free), length_visible]
  rfl

theorem occurrences_of_unfinished {text : Text} (free : terminator ∉ text) :
    kind.occurrences text = [] := by
  rw [occurrences, kind.visibleText_of_unfinished free, Form.occurrences_of_unfinished _ free]

theorem uncovered_of_found {segment : Text} {occurrence : Occurrence}
    (bodiless : (Pattern.ofKind kind).hasBody = false)
    (found : (Form.ofKind kind).found? (kind.visible segment) = some occurrence) :
    covered (segmentSpans segment) occurrence.start = false := by
  obtain ⟨before, inner, captures, whole, -, rfl⟩ := Form.found?_sound found
  obtain ⟨letter, rest, keyword, solid, sameLine⟩ := Form.exists_letter_of_ofKind kind
  have masked : kind.visible segment = maskSegment segment := by simp [visible, bodiless]
  have here : (maskSegment segment)[before.length]? = some letter := by
    rw [← masked, whole, keyword]
    simp
  rw [maskSegment, getElem?_blankWhere] at here
  obtain ⟨character, -, shown⟩ := Option.map_eq_some_iff.mp here
  by_contra hidden
  rw [Bool.not_eq_false] at hidden
  by_cases line : character = '\n'
  · exact sameLine (by rw [← shown]; simp [line])
  · exact solid (by rw [← shown]; simp [line, hidden])

theorem uncovered_start {text : Text} {occurrence : Occurrence}
    (bodiless : (Pattern.ofKind kind).hasBody = false)
    (member : occurrence ∈ kind.occurrences text) :
    covered (bodySpans text) occurrence.start = false := by
  induction text using Text.segmentInduction generalizing occurrence with
  | unfinished text free => simp [occurrences_of_unfinished free] at member
  | ended segment rest free ih =>
      rw [occurrences_segment free, List.mem_append, Option.mem_toList] at member
      rcases member with here | later
      · have inside := Form.start_lt_of_found (Form.anchored_ofKind kind).worded here
        rw [length_visible] at inside
        rw [covered_segment free rest (by omega)]
        exact uncovered_of_found bodiless here
      · obtain ⟨inner, inRest, rfl⟩ := List.mem_map.mp later
        simp only [Occurrence.shift]
        rw [Nat.add_comm, covered_behind_segment free rest]
        exact ih inRest

end Kind

/-! ## Bodies that meet -/

theorem start_lt_bodySpan {form : Form} (worded : form.keyword ≠ []) {segment : Text}
    {occurrence : Occurrence} (found : form.found? segment = some occurrence) {span : Nat × Nat}
    (body : occurrence.bodySpan? = some span) : occurrence.start < span.1 := by
  obtain ⟨before, inner, captures, -, -, rfl⟩ := Form.found?_sound found
  obtain ⟨capture, held, rfl⟩ := Option.map_eq_some_iff.mp body
  obtain ⟨original, -, rfl⟩ := List.mem_map.mp (List.mem_of_find?_eq_some held)
  have := List.length_pos_iff.mpr worded
  simp only
  omega

theorem mem_segmentSpans {form : Form} (hasBody : form ∈ bodyForms) {segment : Text}
    {occurrence : Occurrence} (found : form.found? segment = some occurrence) {span : Nat × Nat}
    (body : occurrence.bodySpan? = some span) : span ∈ segmentSpans segment :=
  List.mem_filterMap.mpr ⟨form, hasBody, by rw [found]; exact body⟩

theorem bodySpan_snd_lt {form : Form} (hasBody : form ∈ bodyForms) {segment : Text}
    {occurrence : Occurrence} (found : form.found? segment = some occurrence) {span : Nat × Nat}
    (body : occurrence.bodySpan? = some span) : span.1 ≤ span.2 ∧ span.2 + 1 = segment.length :=
  (quotes_of_mem_segmentSpans (mem_segmentSpans hasBody found body)).snd_lt

theorem exists_bodySpan_of_found {form : Form} (hasBody : form ∈ bodyForms) {segment : Text}
    {occurrence : Occurrence} (found : form.found? segment = some occurrence) :
    ∃ span, occurrence.bodySpan? = some span := by
  obtain ⟨before, inner, captures, -, read, rfl⟩ := Form.found?_sound found
  obtain ⟨opened, body, span, -⟩ := bodySpan?_behindKeyword hasBody before read
  exact ⟨_, span⟩

theorem bodies_end_together {form other : Form} (hasBody : form ∈ bodyForms)
    (hasBodyToo : other ∈ bodyForms) {text : Text} {occurrence holder : Occurrence}
    (member : occurrence ∈ form.matcher.occurrences text)
    (memberToo : holder ∈ other.matcher.occurrences text) {span : Nat × Nat}
    (body : holder.bodySpan? = some span) (behind : span.1 ≤ occurrence.start)
    (before : occurrence.start < span.2) :
    form ≠ other ∧ ∃ inner, occurrence.bodySpan? = some inner ∧ inner.2 = span.2 := by
  induction text using Text.segmentInduction generalizing occurrence holder span with
  | unfinished text free => simp [form.occurrences_of_unfinished free] at member
  | ended segment rest free ih =>
      rw [(anchored_of_mem_bodyForms hasBody).occurrences_segment free, List.mem_append,
        Option.mem_toList] at member
      rw [(anchored_of_mem_bodyForms hasBodyToo).occurrences_segment free, List.mem_append,
        Option.mem_toList] at memberToo
      rcases member with here | later <;> rcases memberToo with hereToo | laterToo
      · obtain ⟨inner, innerBody⟩ := exists_bodySpan_of_found hasBody here
        have innerEnd := bodySpan_snd_lt hasBody here innerBody
        have outerEnd := bodySpan_snd_lt hasBodyToo hereToo body
        refine ⟨?_, inner, innerBody, by omega⟩
        rintro rfl
        obtain rfl := Option.some.inj (here.symm.trans hereToo)
        have := start_lt_bodySpan (anchored_of_mem_bodyForms hasBody).worded here body
        omega
      · -- The body lies in a later segment.
        have inside := Form.start_lt_of_found (anchored_of_mem_bodyForms hasBody).worded here
        obtain ⟨inner, -, rfl⟩ := List.mem_map.mp laterToo
        rw [Occurrence.bodySpan?_shift] at body
        obtain ⟨innerSpan, -, rfl⟩ := Option.map_eq_some_iff.mp body
        simp only at behind
        omega
      · -- The body ends in an earlier segment.
        have outerEnd := bodySpan_snd_lt hasBodyToo hereToo body
        obtain ⟨inner, -, rfl⟩ := List.mem_map.mp later
        simp only [Occurrence.shift] at before
        omega
      · obtain ⟨inner, inRest, rfl⟩ := List.mem_map.mp later
        obtain ⟨innerHolder, inRestToo, rfl⟩ := List.mem_map.mp laterToo
        rw [Occurrence.bodySpan?_shift] at body
        obtain ⟨innerSpan, innerBody, rfl⟩ := Option.map_eq_some_iff.mp body
        simp only [Occurrence.shift] at behind before
        obtain ⟨differ, nested, nestedBody, same⟩ :=
          ih inRest inRestToo innerBody (by omega) (by omega)
        refine ⟨differ, _, by rw [Occurrence.bodySpan?_shift, nestedBody]; rfl, ?_⟩
        simp only [same]

namespace Kind

theorem mem_bodyForms {kind : Kind} (carries : kind ∈ [Kind.write, Kind.append]) :
    Form.ofKind kind ∈ bodyForms := by
  rcases List.mem_pair.mp carries with rfl | rfl <;> simp [bodyForms, Form.ofKind]

theorem carries_of_hasBody {kind : Kind} (hasBody : (Pattern.ofKind kind).hasBody = true) :
    kind ∈ [Kind.write, Kind.append] := by
  revert hasBody
  cases kind <;> decide

theorem visibleText_of_body {kind : Kind} (carries : kind ∈ [Kind.write, Kind.append])
    (text : Text) : (Pattern.ofKind kind).visibleText text = text := by
  rcases List.mem_pair.mp carries with rfl | rfl <;> rfl

theorem visibleText_of_bodiless {kind : Kind} (bodiless : (Pattern.ofKind kind).hasBody = false)
    (text : Text) : (Pattern.ofKind kind).visibleText text = mask text :=
  if_neg (by simp [bodiless])

/-- What starts inside the body of a statement is content, unless it is a statement with a
body of the other kind, which ends where the body ends. -/
theorem of_start_inside_body {text : Text} {kind carrier : Kind}
    (carries : carrier ∈ [Kind.write, Kind.append]) {occurrence holder : Occurrence}
    (member : occurrence ∈ kind.occurrences text)
    (memberToo : holder ∈ carrier.occurrences text) {span : Nat × Nat}
    (body : holder.bodySpan? = some span) (behind : span.1 ≤ occurrence.start)
    (before : occurrence.start < span.2) :
    kind ∈ [Kind.write, Kind.append] ∧ kind ≠ carrier ∧
      ∃ inner, occurrence.bodySpan? = some inner ∧ inner.2 = span.2 := by
  rw [occurrences, visibleText_of_body carries] at memberToo
  have hidden : covered (bodySpans text) occurrence.start = true := by
    rw [covered_iff, bodySpans_eq]
    refine ⟨span, ?_, behind, before⟩
    exact List.mem_flatMap.mpr
      ⟨_, mem_bodyForms carries, List.mem_filterMap.mpr ⟨holder, memberToo, body⟩⟩
  cases hasBody : (Pattern.ofKind kind).hasBody with
  | false =>
      rw [uncovered_start hasBody member] at hidden
      nomatch hidden
  | true =>
      have carriesToo := carries_of_hasBody hasBody
      rw [occurrences, visibleText_of_body carriesToo] at member
      obtain ⟨differ, ends⟩ := bodies_end_together (mem_bodyForms carriesToo)
        (mem_bodyForms carries) member memberToo body behind before
      exact ⟨carriesToo, fun same => differ (congrArg Form.ofKind same), ends⟩

/-- An addition that is quoted in the body of a writing is found all the same. -/
theorem of_start_inside_body_quoted :
    let text := Text.ofString "WRITE TO a THIS CONTENT: \"APPEND TO b THIS CONTENT: \"x\"\";"
    (Pattern.ofKind .append).extract text = .ok [[Text.ofString "b", Text.ofString "x\""]] ∧
    ∃ occurrence ∈ Kind.append.occurrences text, ∃ holder ∈ Kind.write.occurrences text,
      ∃ span, holder.bodySpan? = some span ∧ span.1 ≤ occurrence.start ∧
        occurrence.start < span.2 ∧
        ∃ inner, occurrence.bodySpan? = some inner ∧ inner.2 = span.2 := by
  intro text
  let occurrence : Occurrence :=
    ⟨26, [⟨.path, 10, Text.ofString "b"⟩, ⟨.body, 27, Text.ofString "x\""⟩]⟩
  let holder : Occurrence :=
    ⟨0, [⟨.path, 9, Text.ofString "a"⟩,
      ⟨.body, 26, Text.ofString "APPEND TO b THIS CONTENT: \"x\""⟩]⟩
  have single : Kind.append.occurrences text = [occurrence] := by decide
  have member : occurrence ∈ Kind.append.occurrences text := single ▸ List.mem_cons_self
  have extracted : (Pattern.ofKind .append).extract text =
      .ok [[Text.ofString "b", Text.ofString "x\""]] := by
    rw [Pattern.extract_ofKind, rows_eq_map_occurrences, single]
    rfl
  have memberToo : holder ∈ Kind.write.occurrences text := by decide
  have body : holder.bodySpan? = some (26, 55) := by decide
  have carries : Kind.write ∈ [Kind.write, Kind.append] := List.mem_cons_self
  obtain ⟨-, -, ends⟩ :=
    of_start_inside_body carries member memberToo body (by decide) (by decide)
  exact ⟨extracted, occurrence, member, holder, memberToo, _, body, by decide, by decide, ends⟩

end Kind

end CommandFile
