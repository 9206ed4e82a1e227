import CommandFile.Proofs.Interference

/-!
# Passes over few kinds

A pass over a document that holds statements of two kinds only comes to the batches of
these two, whatever other markers there are.
-/

namespace CommandFile.Pass

variable {faults : Faults} {document : Text} {keep : Kind → Bool} {kinds : List Kind} {tree : Tree}
  {pass : Pass} {turns : Kind → List Nat}

theorem lookup_filter (keep : Kind → Bool) (kind : Kind) (results : List (Kind × List Outcome)) :
    (results.filter fun result => keep result.1).lookup kind =
      if keep kind then results.lookup kind else none := by
  induction results with
  | nil => simp
  | cons result results ih =>
      obtain ⟨first, outcomes⟩ := result
      by_cases same : kind = first
      · subst same
        cases kept : keep kind with
        | true => simp [kept]
        | false => simpa [kept] using ih
      · have other : (kind == first) = false := by simpa using same
        cases kept : keep first <;> simp [List.lookup_cons, kept, other, ih]

/-! ## Results that are left out -/

section LeftOut

variable (answer : (ofKinds faults document kinds tree turns).answer = .ok pass)
  (idle : ∀ kind ∈ kinds, keep kind = false → kind.rows document = [])
include answer idle

theorem result_of_idle {result : Kind × List Outcome} (inside : result ∈ pass.results)
    (dropped : keep result.1 = false) : result.2 = [] := by
  obtain ⟨kindsOf, empty⟩ := ofKinds_results answer
  apply empty result inside
  apply idle result.1 _ dropped
  rw [← kindsOf]
  exact List.mem_map_of_mem inside

theorem outcomes_only : (pass.only keep).outcomes = pass.outcomes := by
  have empty : ∀ result ∈ pass.results, keep result.1 = false → result.2 = [] :=
    fun result inside dropped => result_of_idle answer idle inside dropped
  unfold outcomes only
  generalize pass.results = results at empty ⊢
  induction results with
  | nil => rfl
  | cons result results ih =>
      have later := ih fun other inside => empty other (List.mem_cons_of_mem _ inside)
      cases kept : keep result.1 with
      | true => simp [kept, later]
      | false => simp [kept, later, empty result List.mem_cons_self kept]

theorem outcomesOf_only (kind : Kind) :
    (pass.only keep).outcomesOf kind = pass.outcomesOf kind := by
  unfold outcomesOf only
  rw [lookup_filter]
  split
  · rfl
  · next dropped =>
      cases found : pass.results.lookup kind with
      | none => rfl
      | some outcomes =>
          obtain ⟨before, later, split, -⟩ := List.lookup_eq_some_iff.mp found
          have inside : (kind, outcomes) ∈ pass.results := by simp [split]
          have empty := result_of_idle answer idle inside (Bool.eq_false_iff.mpr dropped)
          exact empty.symm

end LeftOut

theorem unmarked_rows {kind : Kind} (allowed : (Pattern.ofKind kind).excluded = [])
    (absent : (Pattern.ofKind kind).isPresent document = false) : kind.rows document = [] := by
  refine List.eq_nil_iff_forall_not_mem.mpr fun row member => ?_
  have present := Pattern.isPresent_of_mem_rows member (by simp [allowed])
  nomatch absent.symm.trans present

/-! ## Two kinds -/

theorem ofKinds_two (calm : faults.Calm) (kind next : Kind) (tree : Tree)
    (turns : Kind → List Nat) :
    let first := Batch.handle faults (Pattern.ofKind kind) document tree (turns kind)
    let second := Batch.handle faults (Pattern.ofKind next) document first.tree (turns next)
    (ofKinds faults document [kind, next] tree turns).tree = second.tree ∧
      ∃ batch others, first.answer = .ok batch ∧ second.answer = .ok others ∧
        (ofKinds faults document [kind, next] tree turns).answer =
          .ok ⟨[(kind, batch.outcomes), (next, others.outcomes)],
            batch.messages ++ others.messages⟩ := by
  intro first second
  obtain ⟨batch, here, -, -⟩ := Batch.handle_ok calm kind document tree (turns kind)
  obtain ⟨others, there, -, -⟩ := Batch.handle_ok calm next document first.tree (turns next)
  obtain ⟨answerFirst, lastFirst⟩ := ofKinds_cons_of_ok turns here [next]
  obtain ⟨answerSecond, lastSecond⟩ := ofKinds_cons_of_ok turns there []
  refine ⟨lastFirst.trans lastSecond, batch, others, here, there, ?_⟩
  rw [answerFirst, answerSecond]
  simp [ofKinds, Except.map]

def InTurn (kind next : Kind) : Prop :=
  Kind.all.filter (fun other => other = kind || other = next) = [kind, next]

/-- Where statements of two kinds are all that a document holds, a pass is a batch of the
first kind and a batch of the second. -/
theorem run_two (calm : faults.Calm) {kind next : Kind} (inTurn : InTurn kind next)
    (allowed : ∀ other ∈ [kind, next], (Pattern.ofKind other).excluded = [])
    (only : ∀ other ∈ detectKinds document, other ≠ kind → other ≠ next →
      (Pattern.ofKind other).extract document = .ok []) (tree : Tree)
    (turns : Kind → List Nat := fun _ => []) :
    let first := Batch.handle faults (Pattern.ofKind kind) document tree (turns kind)
    let second := Batch.handle faults (Pattern.ofKind next) document first.tree (turns next)
    (run faults document tree turns).tree = second.tree ∧
      ∃ pass batch others, (run faults document tree turns).answer = .ok pass ∧
        first.answer = .ok batch ∧ second.answer = .ok others ∧
        pass.outcomes = batch.outcomes ++ others.outcomes ∧
        pass.messages = batch.messages ++ others.messages ∧
        pass.outcomesOf kind = batch.outcomes := by
  intro first second
  let isKept : Kind → Bool := fun other => other = kind || other = next
  let isMarked : Kind → Bool := fun other => (Pattern.ofKind other).isPresent document
  have idle : ∀ other ∈ detectKinds document, isKept other = false → other.rows document = [] := by
    intro other inside away
    have others : other ≠ kind ∧ other ≠ next := by simpa [isKept] using away
    exact Except.ok.inj ((Pattern.extract_ofKind other document).symm.trans
      (only other inside others.1 others.2))
  have unmarked : ∀ other ∈ [kind, next], isMarked other = false → other.rows document = [] :=
    fun other inside absent => unmarked_rows (allowed other inside) absent
  -- Both kinds of a pass may lack their markers, and other kinds may have theirs.
  have both : (detectKinds document).filter isKept = [kind, next].filter isMarked := by
    rw [detectKinds_eq, List.filter_comm]
    exact congrArg (List.filter isMarked) inTurn
  obtain ⟨batches, -, -, whole⟩ := ofKinds_ok calm document (detectKinds document) tree turns
  obtain ⟨lastTwo, batch, others, here, there, answerTwo⟩ := ofKinds_two calm kind next tree turns
  obtain ⟨runAnswer, runLast⟩ := run_eq_ofKinds faults document tree turns
  obtain ⟨lastKept, answerKept⟩ := ofKinds_filter (detectKinds document) tree idle turns
  obtain ⟨lastMarked, answerMarked⟩ := ofKinds_filter [kind, next] tree unmarked turns
  rw [both] at lastKept answerKept
  rw [answerKept, whole, answerTwo] at answerMarked
  have same := Except.ok.inj answerMarked
  have outcomes := congrArg Pass.outcomes same
  have outcomesOfKind := congrArg (outcomesOf kind) same
  rw [outcomes_only whole idle, outcomes_only answerTwo unmarked] at outcomes
  rw [outcomesOf_only whole idle, outcomesOf_only answerTwo unmarked] at outcomesOfKind
  refine ⟨?_, _, batch, others, runAnswer.trans whole, here, there, ?_, congrArg messages same, ?_⟩
  · rw [runLast, ← lastKept, lastMarked, lastTwo]
  · simpa [Pass.outcomes] using outcomes
  · simpa [outcomesOf] using outcomesOfKind

end CommandFile.Pass
