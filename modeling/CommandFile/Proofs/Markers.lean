import CommandFile.Proofs.Passes

/-!
# Markers

A statement holds the marker words of its kind, in the document itself and not only in
what masking makes of it.  So a pass over the detected kinds leaves out nothing but kinds
without statements, unless the excluded word hides a kind that has some.
-/

namespace CommandFile

theorem isMarker_iff_any (word : Text) :
    ('"' ∉ word ∧ terminator ∉ word ∧
      word.any (fun character => character ≠ ' ' && character ≠ '\n') = true) ↔
        IsMarker word := by
  simp [IsMarker]

instance (word : Text) : Decidable (IsMarker word) :=
  decidable_of_iff _ (isMarker_iff_any word)

namespace Pattern

theorem isPresent_iff (pattern : Pattern) (text : Text) :
    pattern.isPresent text = true ↔
      (∀ marker ∈ pattern.markers, marker <:+: text) ∧
        ∀ word ∈ pattern.excluded, ¬ word <:+: text := by
  simp [isPresent, Text.holds_iff_infix, ← Bool.not_eq_true]

theorem isMarker_markers (kind : Kind) : ∀ marker ∈ (ofKind kind).markers, IsMarker marker := by
  cases kind <;> decide

theorem infix_of_visibleText {kind : Kind} {word text : Text} (isMarker : IsMarker word)
    (inside : word <:+: (ofKind kind).visibleText text) : word <:+: text := by
  unfold visibleText at inside
  split at inside
  · exact inside
  · exact isMarker.infix_of_mask inside

theorem contentWord_infix_of_read {inner : Text} {captures : List Capture}
    (read : Form.readContent inner = some captures) : Form.contentWord <:+: inner := by
  obtain ⟨blank, path, opening, body, rfl, -, -, isOpening, -⟩ := Form.readContent_sound read
  obtain ⟨space, gap, -, -, -, rfl⟩ := isOpening
  exact ⟨blank :: (path ++ [space]), gap ++ '"' :: (body ++ ['"']), by simp⟩

theorem markers_infix_of_read {kind : Kind} {inner : Text} {captures : List Capture}
    (read : (Form.ofKind kind).read inner = some captures) :
    ∀ marker ∈ (ofKind kind).markers, marker <:+: (Form.ofKind kind).keyword ++ inner := by
  have within {marker : Text} (inKeyword : marker <:+: (Form.ofKind kind).keyword) :
      marker <:+: (Form.ofKind kind).keyword ++ inner :=
    List.infix_append_of_infix_left inKeyword
  have behind {marker : Text} (inInner : marker <:+: inner) :
      marker <:+: (Form.ofKind kind).keyword ++ inner :=
    List.infix_append_of_infix_right inInner
  cases kind with
  | createFolder => exact List.forall_mem_singleton.mpr (within ⟨[], [' '], rfl⟩)
  | createFile => exact List.forall_mem_singleton.mpr (within ⟨[], [' '], rfl⟩)
  | write =>
      have content := contentWord_infix_of_read read
      exact List.forall_mem_cons.mpr
        ⟨within List.infix_rfl, List.forall_mem_singleton.mpr (behind content)⟩
  | append =>
      have content := contentWord_infix_of_read read
      exact List.forall_mem_cons.mpr
        ⟨within List.infix_rfl, List.forall_mem_singleton.mpr (behind content)⟩
  | rename =>
      obtain ⟨path, newPath, rfl, -, -, -⟩ := Form.readTwoPaths_sound read
      have between : Form.toWord <:+: path ++ Form.toWord ++ newPath := List.infix_append _ _ _
      exact List.forall_mem_cons.mpr
        ⟨within ⟨[], [' '], rfl⟩, List.forall_mem_singleton.mpr (behind between)⟩
  | deleteFile => exact List.forall_mem_singleton.mpr (within ⟨[], [' '], rfl⟩)
  | deleteFolder => exact List.forall_mem_singleton.mpr (within ⟨[], [' '], rfl⟩)
  | deleteForce =>
      obtain ⟨before, path, rfl, -, -⟩ := Form.readForcedPath_sound read
      have ending : Text.ofString "FORCE" <:+: before ++ path ++ Form.forceWord :=
        List.infix_append_of_infix_right ⟨[' '], [], rfl⟩
      exact List.forall_mem_cons.mpr
        ⟨within ⟨[], [' '], rfl⟩, List.forall_mem_singleton.mpr (behind ending)⟩

theorem isPresent_of_mem_rows {kind : Kind} {text : Text} {row : List Text}
    (member : row ∈ kind.rows text)
    (allowed : ∀ word ∈ (ofKind kind).excluded, ¬ word <:+: text) :
    (ofKind kind).isPresent text = true := by
  obtain ⟨inner, captures, inside, read, -⟩ := kind.exists_read_of_mem_rows member
  rw [isPresent_iff]
  refine ⟨fun marker isMarker => ?_, allowed⟩
  have inVisible := (markers_infix_of_read read marker isMarker).trans inside
  exact infix_of_visibleText (isMarker_markers kind marker isMarker) inVisible

end Pattern

theorem Kind.rowOf?_eq_none {kind : Kind} {segment marker : Text}
    (needed : marker ∈ (Pattern.ofKind kind).markers)
    (absent : ¬ marker <:+: kind.visible segment) : kind.rowOf? segment = none := by
  rw [Option.eq_none_iff_forall_ne_some]
  intro row found
  obtain ⟨inner, captures, ending, read, -⟩ := kind.exists_read_of_rowOf? found
  exact absent ((Pattern.markers_infix_of_read read marker needed).trans ending.isInfix)

namespace Pass

/-- A pass that handles every kind, whatever words the document holds. -/
def unfiltered (faults : Faults) (document : Text) (tree : Tree) : Effect Pass :=
  ofKinds faults document Kind.all tree

/-- The pass without the results of some kinds. -/
def only (keep : Kind → Bool) (pass : Pass) : Pass :=
  ⟨pass.results.filter fun result => keep result.1, pass.messages⟩

variable {faults : Faults} {document : Text} {turns : Kind → List Nat}

theorem ofKinds_cons_of_error (turns : Kind → List Nat) {kind : Kind} {tree : Tree}
    {failure : Failure}
    (here : (Batch.handle faults (Pattern.ofKind kind) document tree (turns kind)).answer =
      .error failure)
    (kinds : List Kind) :
    (ofKinds faults document (kind :: kinds) tree turns).answer = .error failure ∧
      (ofKinds faults document (kind :: kinds) tree turns).tree =
        (Batch.handle faults (Pattern.ofKind kind) document tree (turns kind)).tree := by
  rw [ofKinds]
  simp [here]

theorem ofKinds_filter {keep : Kind → Bool} (kinds : List Kind) (tree : Tree)
    (idle : ∀ kind ∈ kinds, keep kind = false → kind.rows document = [])
    (turns : Kind → List Nat := fun _ => []) :
    (ofKinds faults document (kinds.filter keep) tree turns).tree =
        (ofKinds faults document kinds tree turns).tree ∧
      (ofKinds faults document (kinds.filter keep) tree turns).answer =
        (ofKinds faults document kinds tree turns).answer.map (only keep) := by
  induction kinds generalizing tree with
  | nil => exact ⟨rfl, rfl⟩
  | cons kind kinds ih =>
      have idleLater : ∀ other ∈ kinds, keep other = false → other.rows document = [] :=
        fun other inside => idle other (List.mem_cons_of_mem _ inside)
      cases kept : keep kind with
      | true =>
          rw [List.filter_cons_of_pos kept]
          cases here :
            (Batch.handle faults (Pattern.ofKind kind) document tree (turns kind)).answer with
          | error failure =>
              obtain ⟨answer, last⟩ := ofKinds_cons_of_error turns here (kinds.filter keep)
              obtain ⟨answerAll, lastAll⟩ := ofKinds_cons_of_error turns here kinds
              rw [answer, last, answerAll, lastAll]
              exact ⟨rfl, rfl⟩
          | ok batch =>
              obtain ⟨answer, last⟩ := ofKinds_cons_of_ok turns here (kinds.filter keep)
              obtain ⟨answerAll, lastAll⟩ := ofKinds_cons_of_ok turns here kinds
              obtain ⟨lastLater, answerLater⟩ := ih
                (Batch.handle faults (Pattern.ofKind kind) document tree (turns kind)).tree
                idleLater
              rw [answer, last, answerAll, lastAll, lastLater, answerLater]
              refine ⟨rfl, ?_⟩
              cases (ofKinds faults document kinds
                (Batch.handle faults (Pattern.ofKind kind) document tree (turns kind)).tree
                turns).answer with
              | error failure => rfl
              | ok pass => simp [Except.map, only, kept]
      | false =>
          rw [List.filter_cons_of_neg (by simp [kept])]
          have none := idle kind List.mem_cons_self kept
          obtain ⟨here, same⟩ := Batch.handle_of_no_rows none faults tree (turns kind)
          obtain ⟨answerAll, lastAll⟩ := ofKinds_cons_of_ok turns here kinds
          obtain ⟨lastLater, answerLater⟩ := ih tree idleLater
          rw [answerAll, lastAll, same, lastLater, answerLater]
          refine ⟨rfl, ?_⟩
          cases (ofKinds faults document kinds tree turns).answer with
          | error failure => rfl
          | ok pass => simp [Except.map, only, kept]

theorem ofKinds_results {kinds : List Kind} {tree : Tree} {pass : Pass}
    (answer : (ofKinds faults document kinds tree turns).answer = .ok pass) :
    pass.results.map Prod.fst = kinds ∧
      ∀ result ∈ pass.results, result.1.rows document = [] → result.2 = [] := by
  induction kinds generalizing tree pass with
  | nil =>
      obtain rfl := Except.ok.inj answer
      simp
  | cons kind kinds ih =>
      cases here :
        (Batch.handle faults (Pattern.ofKind kind) document tree (turns kind)).answer with
      | error failure =>
          rw [(ofKinds_cons_of_error turns here kinds).1] at answer
          nomatch answer
      | ok batch =>
          rw [(ofKinds_cons_of_ok turns here kinds).1] at answer
          cases later : (ofKinds faults document kinds
            (Batch.handle faults (Pattern.ofKind kind) document tree (turns kind)).tree
            turns).answer with
          | error failure =>
              rw [later] at answer
              nomatch answer
          | ok rest =>
              rw [later] at answer
              obtain rfl := Except.ok.inj answer
              obtain ⟨kindsLater, idleLater⟩ := ih later
              refine ⟨congrArg (kind :: ·) kindsLater, List.forall_mem_cons.mpr ⟨?_, idleLater⟩⟩
              intro none
              rw [(Batch.handle_of_no_rows none faults tree (turns kind)).1] at here
              obtain rfl := Except.ok.inj here
              rfl

theorem detectKinds_eq (document : Text) :
    detectKinds document =
      Kind.all.filter fun kind => (Pattern.ofKind kind).isPresent document := by
  simp [detectKinds, Pattern.table, List.filter_map, Function.comp_def]

theorem mem_detectKinds (kind : Kind) (document : Text) :
    kind ∈ detectKinds document ↔ (Pattern.ofKind kind).isPresent document = true := by
  rw [detectKinds_eq, List.mem_filter]
  exact and_iff_right kind.mem_all

/-- Looking for markers first loses nothing, as long as the excluded word hides no
statement. -/
theorem run_eq_unfiltered (faults : Faults) (document : Text) (tree : Tree) :
    (∀ kind rows, kind ≠ .deleteFolder → (Pattern.ofKind kind).extract document = .ok rows →
      rows ≠ [] → (Pattern.ofKind kind).isPresent document = true) ∧
    (¬ Text.ofString "FORCE" <:+: document ∨
        (Pattern.ofKind .deleteFolder).extract document = .ok [] →
      (run faults document tree).tree = (unfiltered faults document tree).tree ∧
      (run faults document tree).answer =
        (unfiltered faults document tree).answer.map (only (· ∈ detectKinds document)) ∧
      (faults.Calm → ∃ plain, (unfiltered faults document tree).answer = .ok plain) ∧
      ∀ plain, (unfiltered faults document tree).answer = .ok plain →
        plain.results.map Prod.fst = Kind.all ∧
        ∀ result ∈ plain.results, result.1 ∉ detectKinds document → result.2 = []) := by
  have present : ∀ kind, kind ≠ .deleteFolder → kind.rows document ≠ [] →
      (Pattern.ofKind kind).isPresent document = true := by
    intro kind other some
    obtain ⟨row, member⟩ := List.exists_mem_of_ne_nil _ some
    refine Pattern.isPresent_of_mem_rows member ?_
    cases kind with
    | deleteFolder => exact absurd rfl other
    | _ => exact List.forall_mem_nil _
  constructor
  · intro kind rows other extracted some
    obtain rfl := Except.ok.inj ((Pattern.extract_ofKind kind document).symm.trans extracted)
    exact present kind other some
  intro unhidden
  -- Only the deletion of folders has an excluded word, so only it can be missed.
  have idle : ∀ kind, kind ∉ detectKinds document → kind.rows document = [] := by
    intro kind missing
    rw [mem_detectKinds] at missing
    by_contra some
    by_cases folder : kind = .deleteFolder
    · subst folder
      rcases unhidden with unforced | extracted
      · obtain ⟨row, member⟩ := List.exists_mem_of_ne_nil _ some
        exact missing
          (Pattern.isPresent_of_mem_rows member (List.forall_mem_singleton.mpr unforced))
      · exact some (Except.ok.inj ((Pattern.extract_ofKind _ document).symm.trans extracted))
    · exact missing (present kind folder some)
  obtain ⟨runAnswer, runTree⟩ := run_eq_ofKinds faults document tree
  have sameKinds : detectKinds document = Kind.all.filter (· ∈ detectKinds document) := by
    simp only [mem_detectKinds, Bool.decide_eq_true]
    exact detectKinds_eq document
  obtain ⟨lastAll, answerAll⟩ :=
    ofKinds_filter Kind.all tree fun kind _ missing => idle kind (of_decide_eq_false missing)
  rw [← sameKinds] at lastAll answerAll
  refine ⟨runTree.trans lastAll, runAnswer.trans answerAll, fun calm => ?_, ?_⟩
  · obtain ⟨batches, -, -, answer⟩ := ofKinds_ok calm document Kind.all tree
    exact ⟨_, answer⟩
  · intro plain answer
    obtain ⟨kinds, empty⟩ := ofKinds_results answer
    exact ⟨kinds, fun result inside missing => empty result inside (idle result.1 missing)⟩

/-- The excluded word does no harm where folders are deleted by force only. -/
theorem run_eq_unfiltered_forced :
    let document := Text.ofString "CREATE FILE a;DELETE a FORCE;"
    (Pattern.ofKind .deleteForce).isPresent document = true ∧
    (run .none document .empty).tree = (unfiltered .none document .empty).tree ∧
    ∃ plain, (unfiltered .none document .empty).answer = .ok plain ∧
      (run .none document .empty).answer = .ok (plain.only (· ∈ detectKinds document)) := by
  intro document
  obtain ⟨present, whole⟩ := run_eq_unfiltered .none document .empty
  have forced : (Pattern.ofKind .deleteForce).extract document = .ok [[Text.ofString "a"]] := by
    decide
  have folders : (Pattern.ofKind .deleteFolder).extract document = .ok [] := by decide
  obtain ⟨last, answer, returns, -⟩ := whole (.inr folders)
  obtain ⟨plain, plainAnswer⟩ := returns Faults.calm_none
  refine ⟨present _ _ (by decide) forced (by decide), last, plain, plainAnswer, ?_⟩
  rw [answer, plainAnswer]
  rfl

end Pass

end CommandFile
