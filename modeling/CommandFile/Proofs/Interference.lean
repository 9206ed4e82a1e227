import CommandFile.Proofs.Bodies
import CommandFile.Proofs.Markers

/-!
# Interference of bodies

What stands in the bodies of a document takes no part in what the kinds without a body
find.  The markers are another matter, since they are looked up in the document as it is
written: the word that is kept from the deletion of folders also counts inside a body.
-/

namespace CommandFile

theorem Kind.commands_of_differ {kind : Kind} (bodiless : (Pattern.ofKind kind).hasBody = false)
    {document other : Text} (differ : DifferWhere (covered (bodySpans document)) document other) :
    kind.commands other = kind.commands document := by
  rw [commands, commands, rows, rows, visibleText_of_bodiless bodiless,
    visibleText_of_bodiless bodiless, mask_of_differ differ]

namespace Pass

def carriedOut (kind : Kind) (document : Text) : Except Malformed (List Command) :=
  if kind ∈ detectKinds document then (Pattern.ofKind kind).commands document else .ok []

def outcomesOf (kind : Kind) (pass : Pass) : List Outcome := (pass.results.lookup kind).getD []

/-- A kind whose excluded word is in the document is left alone; of any other kind every
statement is carried out. -/
theorem carriedOut_eq (kind : Kind) (document : Text) :
    carriedOut kind document =
      .ok (if (Pattern.ofKind kind).excluded.any document.holds then [] else
        kind.commands document) := by
  unfold carriedOut
  split
  · next detected =>
      rw [mem_detectKinds, Pattern.isPresent, Bool.and_eq_true, Bool.not_eq_true'] at detected
      rw [Pattern.commands_ofKind, detected.2, if_neg Bool.false_ne_true]
  · next missing =>
      rw [mem_detectKinds] at missing
      split
      · rfl
      · next allowed =>
          have absent : ∀ word ∈ (Pattern.ofKind kind).excluded, ¬ word <:+: document :=
            fun word banned inside => allowed
              (List.any_eq_true.mpr ⟨word, banned, (Text.holds_iff_infix _ _).mpr inside⟩)
          have none : kind.rows document = [] :=
            List.eq_nil_iff_forall_not_mem.mpr fun row member =>
              missing (Pattern.isPresent_of_mem_rows member absent)
          rw [Kind.commands, none, List.map_nil]

variable {faults : Faults} {document : Text}

theorem Batches.outcomesOf_answer (calm : faults.Calm) (kind : Kind) {turns : Kind → List Nat}
    {tree last : Tree} {batches : List (Kind × Batch)}
    (chain : Batches faults document turns tree batches last) :
    (kind ∈ batches.map Prod.fst → List.Forall₂ (Batch.Answers kind) (kind.commands document)
        ((ofBatches batches).outcomesOf kind)) ∧
      (kind ∉ batches.map Prod.fst → (ofBatches batches).outcomesOf kind = []) := by
  induction chain with
  | done tree => exact ⟨fun inside => absurd inside List.not_mem_nil, fun _ => rfl⟩
  | @next first tree last batch others here later ih =>
      by_cases same : kind = first
      · subst same
        obtain ⟨settled, answer, answers, -⟩ := Batch.handle_ok calm kind document tree _
        obtain rfl := Except.ok.inj (here.symm.trans answer)
        simpa [ofBatches, outcomesOf] using answers
      · have other : (kind == first) = false := by simpa using same
        simpa [ofBatches, outcomesOf, List.lookup_cons, same, other] using ih

theorem run_answers (calm : faults.Calm) (document : Text) (tree : Tree) :
    ∃ pass, (run faults document tree).answer = .ok pass ∧
      ∀ kind commands, carriedOut kind document = .ok commands →
        List.Forall₂ (Batch.Answers kind) commands (pass.outcomesOf kind) := by
  obtain ⟨batches, chain, kinds, answer⟩ :=
    ofKinds_ok calm document (detectKinds document) tree
  refine ⟨_, (run_eq_ofKinds faults document tree).1.trans answer, fun kind commands carried => ?_⟩
  obtain ⟨answered, left⟩ := chain.outcomesOf_answer calm kind
  rw [kinds] at answered left
  unfold carriedOut at carried
  split at carried
  · next detected =>
      rw [Pattern.commands_ofKind] at carried
      obtain rfl := Except.ok.inj carried
      exact answered detected
  · next missing =>
      obtain rfl := Except.ok.inj carried
      rw [left missing]
      exact .nil

/-- The bodies of a document decide nothing about the statements without a body, but that
folders are deleted only where no body, nor anything else, holds `FORCE`. -/
theorem run_of_bodies (faults : Faults) (calm : faults.Calm) {document other : Text}
    (differ : DifferWhere (covered (bodySpans document)) document other) (tree : Tree) :
    ∃ pass passOther, (run faults document tree).answer = .ok pass ∧
      (run faults other tree).answer = .ok passOther ∧
      ∀ kind, (Pattern.ofKind kind).hasBody = false →
        (Pattern.ofKind kind).commands document = (Pattern.ofKind kind).commands other ∧
        ((kind = .deleteFolder →
            (Text.ofString "FORCE" <:+: document ↔ Text.ofString "FORCE" <:+: other)) →
          ∃ commands, carriedOut kind document = .ok commands ∧
            carriedOut kind other = .ok commands ∧
            List.Forall₂ (Batch.Answers kind) commands (pass.outcomesOf kind) ∧
            List.Forall₂ (Batch.Answers kind) commands (passOther.outcomesOf kind)) := by
  obtain ⟨pass, answer, answers⟩ := run_answers calm document tree
  obtain ⟨passOther, answerOther, answersOther⟩ := run_answers calm other tree
  refine ⟨pass, passOther, answer, answerOther, fun kind bodiless => ⟨?_, fun forced => ?_⟩⟩
  · rw [Pattern.commands_ofKind, Pattern.commands_ofKind, Kind.commands_of_differ bodiless differ]
  · have allowed : (Pattern.ofKind kind).excluded.any other.holds =
        (Pattern.ofKind kind).excluded.any document.holds := by
      cases kind with
      | deleteFolder =>
          have same : other.holds (Text.ofString "FORCE") =
              document.holds (Text.ofString "FORCE") := by
            rw [Bool.eq_iff_iff, Text.holds_iff_infix, Text.holds_iff_infix, forced rfl]
          exact congrArg (· || false) same
      | _ => rfl
    have carried := carriedOut_eq kind document
    have carriedOther := carriedOut_eq kind other
    rw [allowed, Kind.commands_of_differ bodiless differ] at carriedOther
    exact ⟨_, carried, carriedOther, answers _ _ carried, answersOther _ _ carriedOther⟩

/-- A deletion that is quoted in a body gives way to a creation. -/
theorem run_of_bodies_quoted :
    let document := Text.ofString "DELETE FOLDER d;WRITE TO a THIS CONTENT: \"DELETE FOLDER e\";"
    let other := Text.ofString "DELETE FOLDER d;WRITE TO a THIS CONTENT: \"CREATE FOLDER e\";"
    Faults.none.Calm ∧ DifferWhere (covered (bodySpans document)) document other ∧
    ∃ pass passOther, (run .none document .empty).answer = .ok pass ∧
      (run .none other .empty).answer = .ok passOther ∧
      carriedOut .deleteFolder document = .ok [⟨.deleteFolder, [Text.ofString "d"]⟩] ∧
      List.Forall₂ (Batch.Answers .deleteFolder) [⟨.deleteFolder, [Text.ofString "d"]⟩]
        (pass.outcomesOf .deleteFolder) ∧
      List.Forall₂ (Batch.Answers .deleteFolder) [⟨.deleteFolder, [Text.ofString "d"]⟩]
        (passOther.outcomesOf .deleteFolder) := by
  intro document other
  have differ : DifferWhere (covered (bodySpans document)) document other :=
    ⟨by decide, by decide, by decide⟩
  obtain ⟨pass, passOther, answer, answerOther, kinds⟩ :=
    run_of_bodies .none Faults.calm_none differ .empty
  have unforced : ¬ Text.ofString "FORCE" <:+: document := by
    rw [← Text.holds_iff_infix]
    decide
  have unforcedOther : ¬ Text.ofString "FORCE" <:+: other := by
    rw [← Text.holds_iff_infix]
    decide
  obtain ⟨commands, carried, -, answers, answersOther⟩ :=
    (kinds .deleteFolder rfl).2 fun _ => iff_of_false unforced unforcedOther
  have single : carriedOut .deleteFolder document =
      .ok [⟨.deleteFolder, [Text.ofString "d"]⟩] := by decide
  obtain rfl := Except.ok.inj (single.symm.trans carried)
  exact ⟨Faults.calm_none, differ, pass, passOther, answer, answerOther, single, answers,
    answersOther⟩

/-- A body with the word in capitals keeps a folder from being deleted. -/
theorem run_of_bodies_forced :
    let document := Text.ofString "DELETE FOLDER d;WRITE TO a THIS CONTENT: \"FORCE\";"
    let other := Text.ofString "DELETE FOLDER d;WRITE TO a THIS CONTENT: \"force\";"
    DifferWhere (covered (bodySpans document)) document other ∧
    carriedOut .deleteFolder document = .ok [] ∧
    carriedOut .deleteFolder other = .ok [⟨.deleteFolder, [Text.ofString "d"]⟩] ∧
    ∃ pass passOther, (run .none document .empty).answer = .ok pass ∧
      (run .none other .empty).answer = .ok passOther ∧
      pass.outcomesOf .deleteFolder = [] ∧ passOther.outcomesOf .deleteFolder ≠ [] := by
  intro document other
  have nothing : carriedOut .deleteFolder document = .ok [] := by decide
  have single : carriedOut .deleteFolder other =
      .ok [⟨.deleteFolder, [Text.ofString "d"]⟩] := by decide
  obtain ⟨pass, answer, answers⟩ := run_answers Faults.calm_none document .empty
  obtain ⟨passOther, answerOther, answersOther⟩ := run_answers Faults.calm_none other .empty
  refine ⟨⟨by decide, by decide, by decide⟩, nothing, single, pass, passOther, answer,
    answerOther, ?_, ?_⟩
  · exact List.forall₂_nil_left_iff.mp (answers _ _ nothing)
  · intro none
    have answered := answersOther _ _ single
    rw [none] at answered
    nomatch answered

end Pass

end CommandFile
