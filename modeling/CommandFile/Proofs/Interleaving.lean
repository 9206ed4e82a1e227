import CommandFile.Proofs.Markers
import Mathlib.Data.List.FinRange
import Mathlib.Data.List.Sort

/-!
# Interleaving

A pass looks at the statements of one kind at a time, so it does not see how they are
interleaved with statements of other kinds.  Segments can change places as long as those
with statements of a common kind stay in order.
-/

namespace CommandFile

namespace Text

def IsSegment (text : Text) : Prop :=
  text.count terminator = 1 ∧ text.getLast? = some terminator

instance (text : Text) : Decidable text.IsSegment := inferInstanceAs (Decidable (_ ∧ _))

theorem IsSegment.exists_inner {text : Text} (isSegment : text.IsSegment) :
    ∃ inner, terminator ∉ inner ∧ text = inner ++ [terminator] := by
  obtain ⟨once, last⟩ := isSegment
  obtain ⟨inner, rfl⟩ := List.getLast?_eq_some_iff.mp last
  rw [List.count_append, List.count_singleton_self] at once
  exact ⟨inner, List.count_eq_zero.mp (by omega), rfl⟩

theorem infix_flatten_iff {word : Text} (unmarked : terminator ∉ word) (present : word ≠ [])
    {segments : List Text} (each : ∀ segment ∈ segments, segment.IsSegment) :
    word <:+: segments.flatten ↔ ∃ segment ∈ segments, word <:+: segment := by
  constructor
  · intro inside
    induction segments with
    | nil => exact absurd (List.infix_nil.mp inside) present
    | cons segment segments ih =>
        obtain ⟨inner, -, rfl⟩ := (each segment List.mem_cons_self).exists_inner
        rw [List.flatten_cons, List.append_assoc, List.singleton_append] at inside
        rcases infix_beside unmarked inside with here | later
        · exact ⟨_, List.mem_cons_self, List.infix_append_of_infix_left here⟩
        · obtain ⟨other, among, within⟩ :=
            ih (fun other among => each other (List.mem_cons_of_mem _ among)) later
          exact ⟨other, List.mem_cons_of_mem _ among, within⟩
  · rintro ⟨segment, among, within⟩
    exact within.trans (List.infix_of_mem_flatten among)

end Text

/-! ## Statements of segments -/

theorem Kind.rows_flatten (kind : Kind) {segments : List Text}
    (each : ∀ segment ∈ segments, segment.IsSegment) :
    kind.rows segments.flatten = segments.flatMap kind.rows := by
  induction segments with
  | nil => exact kind.rows_of_unfinished (by simp)
  | cons segment segments ih =>
      have complete : segment.Complete := .inr (each segment List.mem_cons_self).2
      rw [List.flatten_cons, kind.rows_append complete, List.flatMap_cons,
        ih fun other among => each other (List.mem_cons_of_mem _ among)]

theorem Pattern.isPresent_flatten_of_perm (kind : Kind) {segments moved : List Text}
    (each : ∀ segment ∈ segments, segment.IsSegment) (perm : moved.Perm segments) :
    (ofKind kind).isPresent moved.flatten = (ofKind kind).isPresent segments.flatten := by
  have eachMoved : ∀ segment ∈ moved, segment.IsSegment :=
    fun segment among => each segment (perm.mem_iff.mp among)
  have same {word : Text} (isMarker : IsMarker word) :
      word <:+: moved.flatten ↔ word <:+: segments.flatten := by
    obtain ⟨-, unmarked, character, member, -⟩ := isMarker
    have present : word ≠ [] := List.ne_nil_of_mem member
    rw [Text.infix_flatten_iff unmarked present eachMoved,
      Text.infix_flatten_iff unmarked present each]
    simp only [perm.mem_iff]
  have excluded : ∀ word ∈ (ofKind kind).excluded, IsMarker word := by
    cases kind <;> decide
  rw [Bool.eq_iff_iff, isPresent_iff, isPresent_iff]
  refine and_congr (forall₂_congr fun word needed => ?_) (forall₂_congr fun word banned => ?_)
  · exact same (isMarker_markers kind word needed)
  · exact not_congr (same (excluded word banned))

/-! ## Orders that keep what matters -/

def Akin (first second : Text) : Prop :=
  ∃ kind, (Pattern.ofKind kind).extract first ≠ .ok [] ∧
    (Pattern.ofKind kind).extract second ≠ .ok []

theorem akin_of_rows {kind : Kind} {first second : Text} (some : kind.rows first ≠ [])
    (others : kind.rows second ≠ []) : Akin first second := by
  refine ⟨kind, ?_, ?_⟩ <;> simpa [Pattern.extract_ofKind]

instance (first second : Text) : Decidable (Akin first second) :=
  decidable_of_iff
    (∃ kind ∈ Kind.all, (Pattern.ofKind kind).extract first ≠ .ok [] ∧
      (Pattern.ofKind kind).extract second ≠ .ok [])
    ⟨fun ⟨kind, _, both⟩ => ⟨kind, both⟩, fun ⟨kind, both⟩ => ⟨kind, kind.mem_all, both⟩⟩

theorem flatMap_filter_ne_nil {α β : Type} [DecidableEq β] (results : α → List β)
    (items : List α) :
    (items.filter fun item => results item ≠ []).flatMap results = items.flatMap results := by
  induction items with
  | nil => rfl
  | cons item items ih =>
      rw [List.filter_cons, List.flatMap_cons]
      split
      · rw [List.flatMap_cons, ih]
      · next none =>
          have none : results item = [] := by simpa using none
          rw [ih, none, List.nil_append]

theorem flatMap_permuted {β : Type} [DecidableEq β] {count : Nat} (results : Fin count → List β)
    (order : Equiv.Perm (Fin count))
    (keeps : ∀ place next, place < next → results (order place) ≠ [] →
      results (order next) ≠ [] → order place < order next) :
    ((List.finRange count).map order).flatMap results =
      (List.finRange count).flatMap results := by
  rw [← flatMap_filter_ne_nil, ← flatMap_filter_ne_nil results (List.finRange count)]
  congr 1
  -- The items with results are the same ones, and in both lists they stand in order.
  let full (place : Fin count) : Bool := decide (results place ≠ [])
  have perm := order.map_finRange_perm.filter full
  have inOrder := (List.pairwise_lt_finRange count).filter full
  have moved : (((List.finRange count).map order).filter full).Pairwise (· < ·) := by
    rw [List.pairwise_filter, List.pairwise_map]
    refine (List.pairwise_lt_finRange count).imp fun {place next} before some someToo => ?_
    exact keeps place next before (of_decide_eq_true some) (of_decide_eq_true someToo)
  exact perm.eq_of_pairwise (fun _ _ _ _ before behind => absurd behind (Fin.lt_asymm before))
    moved inOrder

/-! ## Passes over the same statements -/

variable {faults : Faults} {first second : Text}

theorem Batch.handle_congr {kind : Kind} (same : kind.rows first = kind.rows second)
    (tree : Tree) :
    handle faults (Pattern.ofKind kind) first tree =
      handle faults (Pattern.ofKind kind) second tree := by
  simp only [handle, Pattern.commands_ofKind, Kind.commands, same]

namespace Pass

theorem ofKinds_congr (same : ∀ kind : Kind, kind.rows first = kind.rows second)
    (kinds : List Kind) (tree : Tree) :
    ofKinds faults first kinds tree = ofKinds faults second kinds tree := by
  induction kinds generalizing tree with
  | nil => rfl
  | cons kind kinds ih => simp only [ofKinds, Batch.handle_congr (same kind), ih]

theorem run_congr
    (present : ∀ kind,
      (Pattern.ofKind kind).isPresent first = (Pattern.ofKind kind).isPresent second)
    (same : ∀ kind : Kind, kind.rows first = kind.rows second) (tree : Tree) :
    run faults first tree = run faults second tree := by
  have detected : detectKinds first = detectKinds second := by
    simp only [detectKinds_eq, present]
  simp only [run, detected, ofKinds_congr same]

/-- Segments can change places, as long as those with statements of a common kind stay in
order: the pass leaves the same tree, the same outcomes of every kind and the same lines. -/
theorem run_permuted (faults : Faults) {count : Nat} (segments : Fin count → Text)
    (each : ∀ place, (segments place).IsSegment) (order : Equiv.Perm (Fin count))
    (keeps : ∀ place next, place < next →
      Akin (segments (order place)) (segments (order next)) → order place < order next)
    (tree : Tree) :
    let document := (List.ofFn segments).flatten
    let moved := (List.ofFn (segments ∘ order)).flatten
    run faults moved tree = run faults document tree ∧
      (faults.Calm → ∃ pass, (run faults document tree).answer = .ok pass) := by
  intro document moved
  have inOrder : ∀ segment ∈ List.ofFn segments, segment.IsSegment :=
    List.forall_mem_ofFn_iff.mpr each
  have inMoved : ∀ segment ∈ List.ofFn (segments ∘ order), segment.IsSegment :=
    List.forall_mem_ofFn_iff.mpr fun place => each (order place)
  constructor
  · refine run_congr (fun kind => ?_) (fun kind => ?_) tree
    · exact Pattern.isPresent_flatten_of_perm kind inOrder (order.ofFn_comp_perm segments)
    · have same := flatMap_permuted (fun place => kind.rows (segments place)) order
        fun place next before some someToo => keeps place next before (akin_of_rows some someToo)
      rw [kind.rows_flatten inMoved, kind.rows_flatten inOrder]
      simpa only [List.ofFn_eq_map, List.flatMap_map, Function.comp_apply] using same
  · intro calm
    obtain ⟨batches, -, -, answer⟩ := ofKinds_ok calm document (detectKinds document) tree
    exact ⟨_, (run_eq_ofKinds faults document tree).1.trans answer⟩

/-- A deletion changes places with the creation before it, and both creations keep their
order. -/
theorem run_permuted_swapped :
    let segments : Fin 4 → Text :=
      [Text.ofString "CREATE FILE a;", Text.ofString "DELETE FILE a;",
        Text.ofString "WRITE TO a THIS;", Text.ofString "\nCREATE FILE b;"].get
    let order : Equiv.Perm (Fin 4) := Equiv.swap 0 1
    let document := Text.ofString "CREATE FILE a;DELETE FILE a;WRITE TO a THIS;\nCREATE FILE b;"
    let moved := Text.ofString "DELETE FILE a;CREATE FILE a;WRITE TO a THIS;\nCREATE FILE b;"
    (∀ place, (segments place).IsSegment) ∧
    (∀ place next, place < next →
      Akin (segments (order place)) (segments (order next)) → order place < order next) ∧
    run .none moved .empty = run .none document .empty ∧
    ∃ pass, (run .none document .empty).answer = .ok pass := by
  intro segments order document moved
  have each : ∀ place, (segments place).IsSegment := by decide
  have keeps : ∀ place next, place < next →
      Akin (segments (order place)) (segments (order next)) → order place < order next := by
    decide
  obtain ⟨same, returns⟩ := run_permuted .none segments each order keeps .empty
  exact ⟨each, keeps, same, returns Faults.calm_none⟩

end Pass

end CommandFile
