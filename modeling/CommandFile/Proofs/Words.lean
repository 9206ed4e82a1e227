import CommandFile.Text.Blank
import Mathlib.Data.List.Basic

/-!
# Words in texts

What it means for a word to stand in a text that is put together from parts.  A word
either lies within one part, or it reaches over the mark between two of them.
-/

namespace CommandFile.Text

theorem holds_iff_infix (text word : Text) : text.holds word = true ↔ word <:+: text := by
  induction text with
  | nil => simp [holds]
  | cons character rest ih =>
      simp only [holds, Bool.or_eq_true, List.isPrefixOf_iff_prefix, ih,
        List.infix_cons_iff]

theorem infix_around {word before after : Text} {mark : Char}
    (inside : word <:+: before ++ mark :: after) :
    word <:+: before ∨ word <:+: after ∨
      ∃ left right, word = left ++ mark :: right ∧ left <:+ before ∧ right <+: after := by
  rcases List.infix_append_iff.mp inside with here | there | ⟨left, right, split, ending, start⟩
  · exact .inl here
  · rcases List.infix_cons_iff.mp there with start | there
    · rcases List.prefix_cons_iff.mp start with rfl | ⟨right, rfl, rest⟩
      · exact .inl (List.nil_infix)
      · exact .inr (.inr ⟨[], right, rfl, List.nil_suffix, rest⟩)
    · exact .inr (.inl there)
  · rcases List.prefix_cons_iff.mp start with rfl | ⟨rest, rfl, behind⟩
    · rw [List.append_nil] at split
      exact .inl (split ▸ ending.isInfix)
    · exact .inr (.inr ⟨left, rest, split, ending, behind⟩)

theorem infix_beside {word before after : Text} {mark : Char} (unmarked : mark ∉ word)
    (inside : word <:+: before ++ mark :: after) :
    word <:+: before ∨ word <:+: after := by
  rcases infix_around inside with here | there | ⟨left, right, rfl, -, -⟩
  · exact .inl here
  · exact .inr there
  · exact absurd (by simp) unmarked

theorem prefix_beside {word before after : Text} {mark : Char} (unmarked : mark ∉ word)
    (start : word <+: before ++ mark :: after) : word <+: before := by
  obtain ⟨rest, whole⟩ := start
  rcases List.append_eq_append_iff.mp whole with ⟨more, split, -⟩ | ⟨more, split, tail⟩
  · exact ⟨more, split.symm⟩
  · cases more with
    | nil => exact ⟨[], by simpa using split⟩
    | cons character more =>
        obtain ⟨rfl, -⟩ := List.cons.inj tail
        exact absurd (by simp [split]) unmarked

theorem infix_padded {word text : Text} (solid : word.getLast? ≠ some ' ') {count : Nat}
    (inside : word <:+: text ++ List.replicate count ' ') : word <:+: text := by
  induction count with
  | zero => simpa using inside
  | succ count ih =>
      rw [List.replicate_succ', ← List.append_assoc, List.infix_concat_iff] at inside
      rcases inside with last | within
      · rcases List.suffix_concat_iff.mp last with rfl | ⟨start, rfl, -⟩
        · exact List.nil_infix
        · exact absurd List.getLast?_concat solid
      · exact ih within

/-! ## Spaced parts -/

section Spaced

variable {first second : Text}

theorem prefix_between {before after : Text} (solid : ' ' ∉ first) (solidToo : ' ' ∉ second)
    (start : first ++ ' ' :: second <+: before ++ ' ' :: after) :
    first ++ ' ' :: second <+: before ∨ first = before ∧ second <+: after := by
  obtain ⟨rest, whole⟩ := start
  rcases List.append_eq_append_iff.mp whole with ⟨more, split, -⟩ | ⟨more, split, tail⟩
  · exact .inl ⟨more, split.symm⟩
  · cases more with
    | nil => exact .inl ⟨[], by simpa using split⟩
    | cons character more =>
        obtain ⟨rfl, behind⟩ := List.cons.inj tail
        obtain ⟨same, -, rfl⟩ := (List.append_cons_inj_of_notMem solid solidToo).mp split
        exact .inr ⟨same, rest, behind.symm⟩

@[simp] theorem join_cons_cons (separator text next : Text) (others : List Text) :
    join separator (text :: next :: others) =
      text ++ separator ++ join separator (next :: others) := rfl

theorem infix_spaced {word : Text} (solid : ' ' ∉ word) (present : word ≠ [])
    {parts : List Text} (inside : word <:+: join [' '] parts) : ∃ part ∈ parts, word <:+: part := by
  induction parts with
  | nil => exact absurd (List.infix_nil.mp inside) present
  | cons part parts ih =>
      cases parts with
      | nil => exact ⟨part, List.mem_cons_self, inside⟩
      | cons next parts =>
          rw [join_cons_cons, List.append_assoc, List.singleton_append] at inside
          rcases infix_beside solid inside with here | later
          · exact ⟨part, List.mem_cons_self, here⟩
          · obtain ⟨other, among, within⟩ := ih later
            exact ⟨other, List.mem_cons_of_mem _ among, within⟩

/-- Two words lie in one of the parts, or one lies at the end of a part and the other at
the beginning of the next. -/
theorem infix_spaced_pair (solid : ' ' ∉ first) (solidToo : ' ' ∉ second) {parts : List Text}
    (inside : first ++ ' ' :: second <:+: join [' '] parts) :
    (∃ part ∈ parts, first ++ ' ' :: second <:+: part) ∨
      ∃ neighbours ∈ parts.zip parts.tail, first <:+ neighbours.1 ∧ second <+: neighbours.2 := by
  induction parts with
  | nil => simp [join] at inside
  | cons part parts ih =>
      cases parts with
      | nil => exact .inl ⟨part, List.mem_cons_self, inside⟩
      | cons next parts =>
          rw [join_cons_cons, List.append_assoc, List.singleton_append] at inside
          rcases infix_around inside with here | later | ⟨left, right, split, ending, start⟩
          · exact .inl ⟨part, List.mem_cons_self, here⟩
          · rcases ih later with ⟨other, among, within⟩ | ⟨neighbours, among, touching⟩
            · exact .inl ⟨other, List.mem_cons_of_mem _ among, within⟩
            · exact .inr ⟨neighbours, List.mem_cons_of_mem _ among, touching⟩
          · obtain ⟨rfl, -, rfl⟩ := (List.append_cons_inj_of_notMem solid solidToo).mp split
            refine .inr ⟨(part, next), List.mem_cons_self, ending, ?_⟩
            cases parts with
            | nil => exact start
            | cons other parts =>
                rw [join_cons_cons, List.append_assoc, List.singleton_append] at start
                exact prefix_beside solidToo start

end Spaced

theorem before?_eq_some_iff {text ending before : Text} :
    text.before? ending = some before ↔ text = before ++ ending := by
  unfold before?
  constructor
  · intro found
    split at found
    · next ends =>
        obtain ⟨start, rfl⟩ := List.isSuffixOf_iff_suffix.mp ends
        simp_all
    · simp at found
  · rintro rfl
    simp

theorem after?_eq_none_iff {text word : Text} :
    text.after? word = none ↔ ¬ word <+: text := by
  rw [Option.eq_none_iff_forall_ne_some]
  constructor
  · rintro never ⟨rest, rfl⟩
    exact never rest (after?_append word rest)
  · rintro differs rest found
    exact differs ⟨rest, (after?_eq_some_iff.mp found).symm⟩

end CommandFile.Text
