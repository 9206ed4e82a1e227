import CommandFile.Proofs.Bodies

/-!
# Stability of masks

A mask keeps every position and every line break, and what it changes lies in bodies.  So a masked
text differs from its text in bodies alone, and masking it again changes nothing.  The kinds without
a body read the mask, and find the same in all texts that have it.
-/

namespace CommandFile

theorem covered_bodySpans_iff {text : Text} {index : Nat} :
    covered (bodySpans text) index = true ↔
      ∃ kind ∈ [Kind.write, Kind.append], ∃ occurrence ∈ kind.occurrences text, ∃ span,
        occurrence.bodySpan? = some span ∧ span.1 ≤ index ∧ index < span.2 := by
  rw [covered_iff]
  constructor
  · rintro ⟨span, inside, lower, upper⟩
    rw [bodySpans_eq, List.mem_flatMap] at inside
    obtain ⟨form, hasBody, inside⟩ := inside
    obtain ⟨occurrence, member, body⟩ := List.mem_filterMap.mp inside
    rcases List.mem_pair.mp hasBody with rfl | rfl
    · exact ⟨.write, by decide, occurrence, member, span, body, lower, upper⟩
    · exact ⟨.append, by decide, occurrence, member, span, body, lower, upper⟩
  · rintro ⟨kind, carries, occurrence, member, span, body, lower, upper⟩
    rw [Kind.occurrences, Kind.visibleText_of_body carries] at member
    refine ⟨span, ?_, lower, upper⟩
    rw [bodySpans_eq, List.mem_flatMap]
    exact ⟨_, Kind.mem_bodyForms carries, List.mem_filterMap.mpr ⟨occurrence, member, body⟩⟩

/-! ## What a mask keeps -/

@[simp] theorem length_mask (text : Text) : (mask text).length = text.length := List.length_mapIdx

theorem getElem?_mask (text : Text) (index : Nat) :
    (mask text)[index]? =
      if covered (bodySpans text) index then text[index]?.map blanked else text[index]? := by
  rw [mask_eq_blankWhere, getElem?_blankWhere]
  cases covered (bodySpans text) index with
  | false => simp
  | true =>
      rw [if_pos rfl]
      refine Option.map_congr fun character _ => ?_
      by_cases line : character = '\n' <;> simp [blanked, line]

theorem getElem?_mask_of_visible {text : Text} {index : Nat}
    (visible : covered (bodySpans text) index = false) : (mask text)[index]? = text[index]? := by
  rw [getElem?_mask, visible, if_neg Bool.false_ne_true]

theorem getElem?_mask_eq_newline_iff (text : Text) (index : Nat) :
    (mask text)[index]? = some '\n' ↔ text[index]? = some '\n' := by
  rw [getElem?_mask]
  split
  · cases text[index]? with
    | none => simp
    | some character => by_cases line : character = '\n' <;> simp [blanked, line]
  · rfl

theorem getElem?_ne_terminator_of_covered {text : Text} {index : Nat}
    (hidden : covered (bodySpans text) index = true) : text[index]? ≠ some terminator := by
  induction text using Text.segmentInduction generalizing index with
  | unfinished text free =>
      rw [bodySpans_of_unfinished free] at hidden
      nomatch hidden
  | ended segment rest free ih =>
      rcases Nat.lt_trichotomy index segment.length with before | rfl | after
      · rw [List.getElem?_append_left before]
        exact fun mark => free (List.mem_of_getElem? mark)
      · rw [covered_segment free rest (Nat.lt_succ_self _), covered_end] at hidden
        nomatch hidden
      · obtain ⟨later, rfl⟩ := Nat.exists_eq_add_of_le' (Nat.succ_le_of_lt after)
        rw [Nat.succ_eq_add_one, covered_behind_segment free rest] at hidden
        rw [List.getElem?_append_right (by omega)]
        simpa [show later + (segment.length + 1) - segment.length = later + 1 by omega]
          using ih hidden

theorem differWhere_mask (text : Text) :
    DifferWhere (covered (bodySpans text)) text (mask text) := by
  have hidden {index : Nat} (other : text[index]? ≠ (mask text)[index]?) :
      covered (bodySpans text) index = true := by
    by_contra visible
    exact other (getElem?_mask_of_visible (Bool.eq_false_iff.mpr visible)).symm
  refine ⟨(length_mask text).symm, fun index _ => hidden, fun index inside other => ?_⟩
  have here := hidden other
  have unended := getElem?_ne_terminator_of_covered here
  rw [getElem?_mask, if_pos here] at other ⊢
  rw [List.getElem?_eq_getElem inside] at unended other ⊢
  have unbroken : text[index] ≠ '\n' := by
    intro line
    rw [line] at other
    exact other rfl
  have blank : blanked text[index] = ' ' := if_neg unbroken
  simpa [blank, unbroken, terminator] using unended

/-! ## What the kinds without a body find -/

namespace Kind

variable {kind : Kind} {first second : Text}

theorem occurrences_of_mask (bodiless : (Pattern.ofKind kind).hasBody = false)
    (same : mask first = mask second) : kind.occurrences first = kind.occurrences second := by
  rw [occurrences, occurrences, visibleText_of_bodiless bodiless, visibleText_of_bodiless bodiless,
    same]

theorem extract_of_mask (bodiless : (Pattern.ofKind kind).hasBody = false)
    (same : mask first = mask second) :
    (Pattern.ofKind kind).extract first = (Pattern.ofKind kind).extract second := by
  rw [Pattern.extract_ofKind, Pattern.extract_ofKind, rows_eq_map_occurrences,
    rows_eq_map_occurrences, occurrences_of_mask bodiless same]

end Kind

/-- A mask keeps the length, the line breaks and all that lies outside bodies; masking again
changes nothing, and neither does another body; and the kinds without a body find the same in all
these texts, outside the bodies. -/
theorem mask_stable (text : Text) :
    (mask text).length = text.length ∧
    (∀ index : Nat, (mask text)[index]? = some '\n' ↔ text[index]? = some '\n') ∧
    (∀ index, covered (bodySpans text) index = true ↔
      ∃ kind ∈ [Kind.write, Kind.append], ∃ occurrence ∈ kind.occurrences text, ∃ span,
        occurrence.bodySpan? = some span ∧ span.1 ≤ index ∧ index < span.2) ∧
    (∀ index, covered (bodySpans text) index = false → (mask text)[index]? = text[index]?) ∧
    mask (mask text) = mask text ∧
    (∀ other, DifferWhere (covered (bodySpans text)) text other → mask other = mask text) ∧
    ∀ kind, (Pattern.ofKind kind).hasBody = false →
      (∀ other, other = mask text ∨ DifferWhere (covered (bodySpans text)) text other →
        kind.occurrences other = kind.occurrences text ∧
          (Pattern.ofKind kind).extract other = (Pattern.ofKind kind).extract text) ∧
      ∀ occurrence ∈ kind.occurrences text, covered (bodySpans text) occurrence.start = false := by
  refine ⟨length_mask text, getElem?_mask_eq_newline_iff text, fun _ => covered_bodySpans_iff,
    fun _ => getElem?_mask_of_visible, mask_of_differ (differWhere_mask text),
    fun _ => mask_of_differ, fun kind bodiless => ⟨?_, fun _ => Kind.uncovered_start bodiless⟩⟩
  intro other alike
  have same : mask other = mask text := by
    rcases alike with rfl | differ
    · exact mask_of_differ (differWhere_mask text)
    · exact mask_of_differ differ
  exact ⟨Kind.occurrences_of_mask bodiless same, Kind.extract_of_mask bodiless same⟩

/-- A statement in a body that is quoted in a body can be another one. -/
theorem mask_stable_nested :
    let text := Text.ofString
      "WRITE TO a THIS CONTENT: \"APPEND TO b THIS CONTENT: \"x\"\";CREATE FILE c;"
    let other := Text.ofString
      "WRITE TO a THIS CONTENT: \"APPEND to b THIS CONTENT: \"y\"\";CREATE FILE c;"
    DifferWhere (covered (bodySpans text)) text other ∧
    (Pattern.ofKind .createFile).hasBody = false ∧
    mask (mask text) = mask text ∧ mask other = mask text ∧
    (Pattern.ofKind .createFile).extract other = .ok [[Text.ofString "c"]] := by
  intro text other
  have spans : bodySpans text = [(26, 55), (53, 55)] := by decide
  have differ : DifferWhere (covered (bodySpans text)) text other := by
    rw [spans]
    exact ⟨by decide, by decide, by decide⟩
  obtain ⟨-, -, -, -, again, others, kinds⟩ := mask_stable text
  obtain ⟨-, extracted⟩ := (kinds .createFile rfl).1 other (.inr differ)
  have single : (Pattern.ofKind .createFile).extract text = .ok [[Text.ofString "c"]] := by decide
  exact ⟨differ, rfl, again, others other differ, extracted.trans single⟩

end CommandFile
