import CommandFile.Proofs.Settling
import CommandFile.Statement.Catalogue

/-!
# Rejected batches

The matchers of a pattern have to find equally many statements, and a row puts together
what they captured of one statement.  Where they disagree the batch is rejected as a
whole: the statements that the busiest matcher saw fail, and no call is made.
-/

namespace CommandFile

namespace Pattern

/-! ## Columns and rows -/

theorem length_pairRows {rows column : List (List Text)} (same : column.length = rows.length) :
    (pairRows rows column).length = rows.length := by
  rw [pairRows, List.length_zipWith, same, Nat.min_self]

theorem getD_pairRows {rows column : List (List Text)} (same : column.length = rows.length)
    (place : Nat) :
    (pairRows rows column).getD place [] = rows.getD place [] ++ column.getD place [] := by
  simp only [List.getD_eq_getElem?_getD, pairRows, List.getElem?_zipWith]
  by_cases inside : place < rows.length
  · have insideToo : place < column.length := same ▸ inside
    rw [List.getElem?_eq_getElem inside, List.getElem?_eq_getElem insideToo]
    rfl
  · have outside : rows.length ≤ place := Nat.le_of_not_lt inside
    rw [List.getElem?_eq_none outside, List.getElem?_eq_none (same ▸ outside)]
    rfl

theorem foldl_pairRows {columns : List (List (List Text))} {rows : List (List Text)}
    (same : ∀ column ∈ columns, column.length = rows.length) :
    (columns.foldl pairRows rows).length = rows.length ∧
      ∀ place, (columns.foldl pairRows rows).getD place [] =
        rows.getD place [] ++ columns.flatMap (·.getD place []) := by
  induction columns generalizing rows with
  | nil => simp
  | cons column columns ih =>
      obtain ⟨sameHere, sameLater⟩ := List.forall_mem_cons.mp same
      have paired := length_pairRows sameHere
      obtain ⟨length, each⟩ :=
        ih fun other inside => (sameLater other inside).trans paired.symm
      refine ⟨length.trans paired, fun place => ?_⟩
      rw [List.foldl_cons, each, getD_pairRows sameHere, List.append_assoc, List.flatMap_cons]

theorem eq_map_getD (rows : List (List Text)) :
    rows = (List.range rows.length).map (rows.getD · []) := by
  refine List.ext_getElem (by simp) fun place inside _ => ?_
  simp [inside]

theorem extract_cases (pattern : Pattern) (text : Text) :
    (∃ rows, pattern.extract text = .ok rows ∧
      (∀ column ∈ pattern.columns text, column.length = rows.length) ∧
      rows = (List.range rows.length).map fun place =>
        (pattern.columns text).flatMap (·.getD place [])) ∨
    (pattern.extract text =
        .error ⟨pattern.kind.name, (pattern.columns text).map List.length⟩ ∧
      ∃ column ∈ pattern.columns text, ∃ other ∈ pattern.columns text,
        column.length ≠ other.length) := by
  unfold extract
  cases pattern.columns text with
  | nil => exact .inl ⟨[], rfl, by simp, rfl⟩
  | cons first others =>
      dsimp only
      split
      · next agree =>
          have same : ∀ column ∈ others, column.length = first.length := by simpa using agree
          obtain ⟨length, each⟩ := foldl_pairRows same
          refine .inl ⟨_, rfl, List.forall_mem_cons.mpr ⟨length.symm, fun column inside =>
            (same column inside).trans length.symm⟩, ?_⟩
          have whole := eq_map_getD (others.foldl pairRows first)
          simpa only [each, List.flatMap_cons] using whole
      · next disagree =>
          have different : ∃ column ∈ others, column.length ≠ first.length := by
            simpa using disagree
          obtain ⟨column, inside, unequal⟩ := different
          exact .inr ⟨rfl, column, List.mem_cons_of_mem _ inside, first, List.mem_cons_self,
            unequal⟩

theorem longest_between {α : Type} {lists : List (List α)} (some : lists ≠ []) :
    ∃ before after, lists = before ++ longest lists :: after ∧
      (∀ list ∈ before, list.length < (longest lists).length) ∧
      ∀ list ∈ after, list.length ≤ (longest lists).length := by
  induction lists with
  | nil => exact absurd rfl some
  | cons first others ih =>
      rw [longest]
      split
      · next shorter =>
          have someOthers : others ≠ [] := by
            rintro rfl
            simp [longest] at shorter
          obtain ⟨before, after, split, less, atMost⟩ := ih someOthers
          refine ⟨first :: before, after, congrArg (first :: ·) split, ?_, atMost⟩
          exact List.forall_mem_cons.mpr ⟨shorter, less⟩
      · next longer =>
          refine ⟨[], others, rfl, by simp, fun list inside => ?_⟩
          obtain ⟨before, after, split, less, atMost⟩ := ih (List.ne_nil_of_mem inside)
          have bounded : list.length ≤ (longest others).length := by
            rw [split, List.mem_append, List.mem_cons] at inside
            rcases inside with ahead | rfl | behind
            · exact (less list ahead).le
            · exact le_rfl
            · exact atMost list behind
          omega

end Pattern

/-! ## Reports on what was rejected -/

@[simp] theorem Malformed.message_ne_empty (malformed : Malformed) : malformed.message ≠ "" := by
  simp [Malformed.message, ToString.toString]

theorem Failure.cause_malformed (columns : Malformed) :
    (malformed columns).cause = columns.message :=
  if_neg columns.message_ne_empty

def Message.ofFailure (kind : Kind) (target : Text) (cause : String) : Message :=
  ⟨.error, s!"failed to {kind.action} \"{String.ofList target}\": {cause}"⟩

theorem Outcome.mapM_message_failed (kind : Kind) (targets : List Text) (cause : String) :
    (targets.map fun target => Outcome.mk kind .failed [target] (some cause)).mapM message =
      .ok (targets.map fun target => .ofFailure kind target cause) := by
  induction targets with
  | nil => rfl
  | cons target targets ih =>
      rw [List.map_cons, List.mapM_cons, ih]
      rfl

namespace Batch

theorem handle_of_error {pattern : Pattern} {text : Text} {malformed : Malformed}
    (rejected : pattern.extract text = .error malformed) :
    ∃ log, ∀ faults tree, handle faults pattern text tree =
      ⟨.ok
        { outcomes := (pattern.primaryTargets text).map fun target =>
            ⟨pattern.kind, .failed, [target], some malformed.message⟩
          messages := (pattern.primaryTargets text).map fun target =>
            .ofFailure pattern.kind target malformed.message },
        tree, log⟩ := by
  have commands : pattern.commands text = .error malformed := by
    rw [Pattern.commands, rejected]
    rfl
  have messages := Outcome.mapM_message_failed pattern.kind (pattern.primaryTargets text)
    malformed.message
  apply Exists.intro
  intro faults tree
  simp only [handle, commands, Outcome.failed, Failure.cause_malformed, report,
    Report.ofOutcomes, messages]
  rfl

/-- The matchers of a pattern agree, and extraction puts their captures together row by
row, or the batch is rejected: then every statement that the busiest matcher saw fails
under its first capture, each failure has its line, and no call is made. -/
theorem handle_of_columns (pattern : Pattern) (text : Text) :
    ((∃ malformed, pattern.extract text = .error malformed) ↔
      ∃ column ∈ pattern.columns text, ∃ other ∈ pattern.columns text,
        column.length ≠ other.length) ∧
    (∀ rows, pattern.extract text = .ok rows →
      (∀ column ∈ pattern.columns text, column.length = rows.length) ∧
      rows = (List.range rows.length).map fun place =>
        (pattern.columns text).flatMap (·.getD place [])) ∧
    ∀ malformed, pattern.extract text = .error malformed →
      malformed = ⟨pattern.kind.name, (pattern.columns text).map List.length⟩ ∧
      ∃ before busiest after log,
        pattern.columns text = before ++ busiest :: after ∧
        (∀ column ∈ before, column.length < busiest.length) ∧
        (∀ column ∈ after, column.length ≤ busiest.length) ∧
        ∀ faults tree, handle faults pattern text tree =
          ⟨.ok
            { outcomes := busiest.map fun row =>
                ⟨pattern.kind, .failed, [row.headD []], some malformed.message⟩
              messages := busiest.map fun row =>
                .ofFailure pattern.kind (row.headD []) malformed.message },
            tree, log⟩ := by
  rcases pattern.extract_cases text with
    ⟨rows, extracted, same, puts⟩ | ⟨rejected, column, inside, other, insideToo, unequal⟩
  · refine ⟨iff_of_false ?_ ?_, ?_, ?_⟩
    · rintro ⟨malformed, refused⟩
      nomatch extracted.symm.trans refused
    · rintro ⟨column, inside, other, insideToo, unequal⟩
      exact unequal ((same column inside).trans (same other insideToo).symm)
    · intro found again
      obtain rfl := Except.ok.inj (extracted.symm.trans again)
      exact ⟨same, puts⟩
    · intro malformed refused
      nomatch extracted.symm.trans refused
  · refine ⟨iff_of_true ⟨_, rejected⟩ ⟨column, inside, other, insideToo, unequal⟩, ?_, ?_⟩
    · intro rows extracted
      nomatch rejected.symm.trans extracted
    · intro malformed refused
      obtain rfl := Except.error.inj (rejected.symm.trans refused)
      obtain ⟨before, after, split, less, atMost⟩ :=
        Pattern.longest_between (List.ne_nil_of_mem inside)
      obtain ⟨log, handled⟩ := handle_of_error rejected
      refine ⟨rfl, before, _, after, log, split, less, atMost, fun faults tree => ?_⟩
      rw [handled, Pattern.primaryTargets, List.map_map, List.map_map]
      rfl

/-- Two announcements and two bodies for one path: the announcements come first among the
busiest, and they have nothing to name the failures by. -/
theorem handle_of_columns_tied :
    let pattern : Pattern :=
      { Pattern.ofKind .write with matchers := [.writePath, .noSlots, .quotedBody] }
    let text := Text.ofString "WRITE TO a THIS CONTENT: \"x\"; THIS CONTENT: \"y\";"
    let malformed : Malformed := ⟨"write", [1, 2, 2]⟩
    pattern.extract text = .error malformed ∧
    ∃ log, ∀ faults tree, handle faults pattern text tree =
      ⟨.ok
        { outcomes := List.replicate 2 ⟨.write, .failed, [[]], some malformed.message⟩
          messages := List.replicate 2 (.ofFailure .write [] malformed.message) },
        tree, log⟩ := by
  intro pattern text malformed
  have rejected : pattern.extract text = .error malformed := by decide
  have columns : pattern.columns text =
      [[[Text.ofString "a"]], [[], []], [[Text.ofString "x"], [Text.ofString "y"]]] := by
    decide
  obtain ⟨-, -, refusal⟩ := handle_of_columns pattern text
  obtain ⟨-, before, busiest, after, log, split, less, atMost, handled⟩ :=
    refusal malformed rejected
  have second : busiest = [[], []] := by
    rw [columns] at split
    match before, less with
    | [], _ =>
        obtain ⟨rfl, rfl⟩ := List.cons.inj split
        exact absurd (atMost _ List.mem_cons_self) (by decide)
    | [_], _ => exact (List.cons.inj (List.cons.inj split).2).1.symm
    | [_, tied], less =>
        obtain ⟨rfl, later⟩ := List.cons.inj (List.cons.inj split).2
        obtain ⟨rfl, -⟩ := List.cons.inj later
        exact absurd (less [[], []] (by simp)) (by decide)
    | _ :: _ :: _ :: _, _ => simp at split
  subst second
  exact ⟨rejected, log, handled⟩

end Batch

end CommandFile
