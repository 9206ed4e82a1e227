import CommandFile.Proofs.Attempts
import CommandFile.Proofs.Decomposition

/-!
# Creations in lock step

A batch of creations checks all its targets before it makes the first one.  What it makes
is what the statements would make if each was finished before the next one began: the
tree only grows, so a target that is missing when its turn comes was missing at the start
as well.  The two schedules differ in what they say of a target that the batch itself has
made meanwhile.
-/

namespace CommandFile

theorem getElem?_oneByOne {α β : Type} (step : β → Tree → Effect α) (items : List β) (tree : Tree)
    (place : Nat) :
    (oneByOne step items tree).answers[place]? =
      items[place]?.map fun item =>
        (step item (oneByOne step (items.take place) tree).tree).answer := by
  induction items generalizing tree place with
  | nil => rfl
  | cons item items ih =>
      cases place with
      | zero => rfl
      | succ place => simpa [oneByOne] using ih (step item tree).tree place

namespace Batch

def naming (kind : Kind) (paths : List Text) : List Command :=
  paths.map fun path => ⟨kind, [path]⟩

/-- The tree in which the statement at a place begins, when each one before it has been
finished. -/
def reached (commands : List Command) (tree : Tree) (place : Nat) : Tree :=
  (strictly .none (commands.take place) tree).tree

/-- What is missing at a path in the beginning has been made by a statement before the
one at the place. -/
def MadeBefore (commands : List Command) (tree : Tree) (path : Text) (place : Nat) : Prop :=
  (Operation.checkAccess .none path tree).answer = .ok false ∧
    ∃ earlier < place,
      (Operation.checkAccess .none path (reached commands tree earlier)).answer = .ok false ∧
      (Operation.checkAccess .none path (reached commands tree (earlier + 1))).answer = .ok true

/-- What becomes of the statement for a path at a place, first when each statement is
finished before the next one begins, and then in a batch. -/
inductive Fares (kind : Kind) (commands : List Command) (tree : Tree) (path : Text)
    (place : Nat) : Status → Status → Prop
  | succeeded : Fares kind commands tree path place .succeeded .succeeded
  | failed : Fares kind commands tree path place .failed .failed
  | there (checked : (Operation.checkAccess .none path tree).answer = .ok true) :
      Fares kind commands tree path place .alreadyExists .alreadyExists
  | welcome (made : MadeBefore commands tree path place) (folders : kind = .createFolder)
      (leads : (reached commands tree place).status path = .ok .folder) :
      Fares kind commands tree path place .alreadyExists .succeeded
  | unwelcome (made : MadeBefore commands tree path place)
      (other : kind = .createFolder →
        (reached commands tree place).status path ≠ .ok .folder) :
      Fares kind commands tree path place .alreadyExists .failed

variable {kind : Kind} {operation : Text → Tree → Effect Unit} {path : Text} {start tree : Tree}

/-! ## Creations -/

theorem keeps_creation (creation : creation? .none kind = some operation) (path : Text)
    (tree : Tree) :
    tree.Keeps (operation path tree).tree := by
  cases kind with
  | createFile =>
      obtain rfl := Option.some.inj creation
      exact Operation.keeps_createFile .none path tree
  | createFolder =>
      obtain rfl := Option.some.inj creation
      exact (Operation.gainsFolders_createFolder .none path true tree).keeps
  | _ => nomatch creation

theorem creation_of_status (creation : creation? .none kind = some operation)
    (callable : Operation.Callable path) (screened : Tree.screen path = .ok ())
    (there : tree.status path ≠ .error .noEntry) :
    (operation path tree).tree = tree ∧
      ((operation path tree).answer = .ok () ↔
        kind = .createFolder ∧ tree.status path = .ok .folder) := by
  cases kind with
  | createFile =>
      obtain rfl := Option.some.inj creation
      rcases Operation.createFile_cases path tree with
        ⟨location, -, placed, -, free, -⟩ | ⟨-, last, failure, answer⟩
      · refine absurd ?_ there
        rw [Tree.status_of_place? placed (by simp [free]), free]
        rfl
      · exact ⟨last, by simp [answer]⟩
  | createFolder =>
      obtain rfl := Option.some.inj creation
      obtain ⟨last, answer⟩ := Operation.createFolder_of_callable callable tree
      have thereToo : tree.status (Path.parse path).text ≠ .error .noEntry :=
        mt (Tree.status_of_status_normalize screened) there
      obtain ⟨same, refusal⟩ := Tree.ensureFolders_of_status thereToo
      refine ⟨last.trans same, ?_⟩
      rw [answer, refusal]
      change tree.status (Path.normalize path) = .ok .folder ↔ _
      rw [Tree.status_normalize_eq_folder screened]
      exact (and_iff_right rfl).symm
  | _ => nomatch creation

structure Meanwhile (start tree : Tree) (path : Text) : Prop where
  missing : (Operation.checkAccess .none path start).answer = .ok false
  changed : (Operation.checkAccess .none path tree).answer ≠ .ok false

theorem same_or_meanwhile (grows : start.GrowsTo tree) (path : Text) :
    (Operation.checkAccess .none path start).answer =
        (Operation.checkAccess .none path tree).answer ∨
      Meanwhile start tree path := by
  rcases Operation.checkAccess_of_growsTo grows path with missing | same
  · by_cases still : (Operation.checkAccess .none path tree).answer = .ok false
    · exact .inl (missing.trans still.symm)
    · exact .inr ⟨missing, still⟩
  · exact .inl same.symm

theorem Meanwhile.creation (meanwhile : Meanwhile start tree path)
    (creation : creation? .none kind = some operation) :
    (operation path tree).tree = tree ∧
      ((operation path tree).answer = .ok () ↔
        kind = .createFolder ∧ tree.status path = .ok .folder) := by
  have callable := Operation.callable_of_checkAccess meanwhile.missing
  refine creation_of_status creation callable (Operation.screen_of_checkAccess meanwhile.missing) ?_
  exact mt (Operation.checkAccess_of_missing callable) meanwhile.changed

/-! ## One statement -/

theorem step_of_creation (creation : creation? .none kind = some operation) (start : Tree)
    (path : Text) (tree : Tree) :
    step .none start ⟨kind, [path]⟩ tree =
      create operation (⟨kind, [path]⟩, (Operation.checkAccess .none path start).answer) tree := by
  simp only [step, carryOut, look, creation]
  rfl

theorem perform_of_creation (creation : creation? .none kind = some operation) (path : Text)
    (tree : Tree) :
    perform .none ⟨kind, [path]⟩ tree =
      create operation (⟨kind, [path]⟩, (Operation.checkAccess .none path tree).answer) tree := by
  cases kind with
  | createFile =>
      obtain rfl := Option.some.inj creation
      rfl
  | createFolder =>
      obtain rfl := Option.some.inj creation
      rfl
  | _ => nomatch creation

theorem tree_create (operation : Text → Tree → Effect Unit) (kind : Kind) (path : Text)
    (checked : Except Failure Bool) (tree : Tree) :
    (create operation (⟨kind, [path]⟩, checked) tree).tree =
      if checked = .ok false then (operation path tree).tree else tree := by
  match checked with
  | .error failure => rfl
  | .ok true => rfl
  | .ok false => rfl

theorem status_create (operation : Text → Tree → Effect Unit) (kind : Kind) (path : Text)
    (checked : Except Failure Bool) (tree : Tree) :
    (settle ⟨kind, [path]⟩ (create operation (⟨kind, [path]⟩, checked) tree).answer).status =
      match checked with
      | .error _ => .failed
      | .ok true => .alreadyExists
      | .ok false => if (operation path tree).answer = .ok () then .succeeded else .failed := by
  match checked with
  | .error failure => rfl
  | .ok true => rfl
  | .ok false =>
      change (settle _ (conclude kind [path] (operation path tree)).answer).status = _
      unfold conclude
      cases (operation path tree).answer with
      | ok _ => rfl
      | error failure => rfl

theorem growsTo_perform (creation : creation? .none kind = some operation) (path : Text)
    (tree : Tree) :
    tree.GrowsTo (perform .none ⟨kind, [path]⟩ tree).tree := by
  rw [perform_of_creation creation, tree_create]
  split
  · exact (keeps_creation creation path tree).growsTo
  · exact .refl tree

theorem step_tree_eq (creation : creation? .none kind = some operation) (grows : start.GrowsTo tree)
    (path : Text) :
    (step .none start ⟨kind, [path]⟩ tree).tree = (perform .none ⟨kind, [path]⟩ tree).tree := by
  rw [step_of_creation creation, perform_of_creation creation]
  rcases same_or_meanwhile grows path with same | meanwhile
  · rw [same]
  · rw [tree_create, tree_create, if_pos meanwhile.missing, if_neg meanwhile.changed]
    exact (meanwhile.creation creation).1

theorem fares_step {commands : List Command} {place : Nat}
    (creation : creation? .none kind = some operation)
    (grows : start.GrowsTo (reached commands start place))
    (made : (Operation.checkAccess .none path start).answer = .ok false →
      (Operation.checkAccess .none path (reached commands start place)).answer = .ok true →
      MadeBefore commands start path place) :
    let now := reached commands start place
    Fares kind commands start path place
      (settle ⟨kind, [path]⟩ (perform .none ⟨kind, [path]⟩ now).answer).status
      (settle ⟨kind, [path]⟩ (step .none start ⟨kind, [path]⟩ now).answer).status := by
  intro now
  rw [perform_of_creation creation, step_of_creation creation, status_create, status_create]
  rcases same_or_meanwhile grows path with same | meanwhile
  · rw [← same]
    match checked : (Operation.checkAccess .none path start).answer with
    | .error failure => exact .failed
    | .ok true => exact .there checked
    | .ok false =>
        dsimp only
        split
        · exact .succeeded
        · exact .failed
  · have answer := (meanwhile.creation creation).2
    rw [meanwhile.missing]
    match checked : (Operation.checkAccess .none path now).answer with
    | .ok false => exact absurd checked meanwhile.changed
    | .error failure =>
        have nowhere : ¬ (operation path now).answer = .ok () := by
          intro done
          have callable := Operation.callable_of_checkAccess meanwhile.missing
          have there := (Operation.checkAccess_eq_true_iff callable).mpr ⟨_, (answer.mp done).2⟩
          nomatch there.symm.trans checked
        dsimp only
        rw [if_neg nowhere]
        exact .failed
    | .ok true =>
        have earlier := made meanwhile.missing checked
        dsimp only
        split
        · next done => exact .welcome earlier (answer.mp done).1 (answer.mp done).2
        · next refused =>
            exact .unwelcome earlier fun folders leads => refused (answer.mpr ⟨folders, leads⟩)

/-! ## Whole runs -/

theorem growsTo_strictly (creation : creation? .none kind = some operation) (paths : List Text)
    (tree : Tree) : tree.GrowsTo (strictly .none (naming kind paths) tree).tree := by
  induction paths generalizing tree with
  | nil => exact .refl tree
  | cons path paths ih => exact (growsTo_perform creation path tree).trans (ih _)

theorem oneByOne_tree_eq (creation : creation? .none kind = some operation) (paths : List Text)
    (grows : start.GrowsTo tree) :
    (oneByOne (step .none start) (naming kind paths) tree).tree =
      (strictly .none (naming kind paths) tree).tree := by
  induction paths generalizing tree with
  | nil => rfl
  | cons path paths ih =>
      have here := step_tree_eq creation grows path
      have later := ih (grows.trans (growsTo_perform creation path tree))
      rw [← here] at later
      rw [naming, List.map_cons, strictly, oneByOne, oneByOne, ← here]
      exact later

theorem reached_succ_growsTo (creation : creation? .none kind = some operation) (paths : List Text)
    (tree : Tree) (place : Nat) :
    (reached (naming kind paths) tree place).GrowsTo
      (reached (naming kind paths) tree (place + 1)) := by
  have whole : (naming kind paths).take (place + 1) =
      (naming kind paths).take place ++ naming kind (paths[place]?.toList) := by
    rw [List.take_add_one, naming, List.getElem?_map]
    cases paths[place]? <;> rfl
  unfold reached strictly
  rw [whole, oneByOne_append]
  exact growsTo_strictly creation _ _

theorem madeBefore_of_reached (creation : creation? .none kind = some operation) (paths : List Text)
    (missing : (Operation.checkAccess .none path tree).answer = .ok false) {place : Nat}
    (present : (Operation.checkAccess .none path
      (reached (naming kind paths) tree place)).answer = .ok true) :
    MadeBefore (naming kind paths) tree path place := by
  refine ⟨missing, ?_⟩
  -- Going back from the place, the last statement before which the path was missing.
  induction place with
  | zero => nomatch missing.symm.trans present
  | succ place ih =>
      rcases Operation.checkAccess_of_growsTo (reached_succ_growsTo creation paths tree place) path
        with still | same
      · exact ⟨place, place.lt_succ_self, still, present⟩
      · obtain ⟨earlier, before, turn⟩ := ih (same.symm.trans present)
        exact ⟨earlier, before.trans place.lt_succ_self, turn⟩

theorem exists_naming (single : (Form.ofKind kind).slots.length = 1) (document : Text) :
    ∃ paths, kind.commands document = naming kind paths := by
  refine ⟨(kind.commands document).map fun command => command.args.headD [], ?_⟩
  have same : ∀ command ∈ kind.commands document,
      (⟨kind, [command.args.headD []]⟩ : Command) = command := by
    intro command inside
    obtain ⟨args, rfl, arity⟩ := kind_of_mem_commands inside
    obtain ⟨path, rfl⟩ := List.length_eq_one_iff.mp (arity.trans single)
    rfl
  rw [naming, List.map_map]
  exact ((List.map_congr_left same).trans (List.map_id _)).symm

/-- To check all targets first changes nothing about what is made.  It changes the
outcomes only where the batch has made a target itself: then a file is refused, and so is
a folder, unless there is a folder now. -/
theorem handle_creations {kind : Kind} (creates : kind = .createFile ∨ kind = .createFolder)
    (document : Text) (tree : Tree) :
    ∃ paths outcomes messages,
      let commands := naming kind paths
      let strict := strictly .none commands tree
      let batch := handle .none (Pattern.ofKind kind) document tree
      (Pattern.ofKind kind).commands document = .ok commands ∧
      batch.answer = .ok ⟨outcomes, messages⟩ ∧
      batch.tree = strict.tree ∧
      strict.answers.length = paths.length ∧ outcomes.length = paths.length ∧
      ∀ place path, paths[place]? = some path →
        ∃ answer outcome, strict.answers[place]? = some answer ∧
          outcomes[place]? = some outcome ∧
          Fares kind commands tree path place (settle ⟨kind, [path]⟩ answer).status
            outcome.status := by
  obtain ⟨operation, creation⟩ : ∃ operation, creation? .none kind = some operation := by
    rcases creates with rfl | rfl <;> exact ⟨_, rfl⟩
  have single : (Form.ofKind kind).slots.length = 1 := by
    rcases creates with rfl | rfl <;> rfl
  obtain ⟨paths, commands⟩ := exists_naming single document
  obtain ⟨last, -, messages, answer, -⟩ := handle_eq_oneByOne Faults.calm_none kind document tree
  rw [commands] at last answer
  have items := length_oneByOne (step .none tree) (naming kind paths) tree
  have itemsStrict := length_oneByOne (perform .none) (naming kind paths) tree
  have named : (naming kind paths).length = paths.length := List.length_map _
  refine ⟨paths, _, messages, ?_, answer, last.trans ?_, itemsStrict.trans named, ?_, ?_⟩
  · rw [Pattern.commands_ofKind, commands]
  · exact oneByOne_tree_eq creation paths (.refl tree)
  · rw [List.length_zipWith, items, Nat.min_self, named]
  intro place path here
  have command : (naming kind paths)[place]? = some ⟨kind, [path]⟩ := by
    rw [naming, List.getElem?_map, here]
    rfl
  have before : (naming kind paths).take place = naming kind (paths.take place) :=
    List.map_take.symm
  have now : (oneByOne (step .none tree) ((naming kind paths).take place) tree).tree =
      reached (naming kind paths) tree place := by
    rw [reached, before]
    exact oneByOne_tree_eq creation _ (.refl tree)
  have grows : tree.GrowsTo (reached (naming kind paths) tree place) := by
    rw [reached, before]
    exact growsTo_strictly creation _ tree
  refine ⟨_, _, ?_, ?_, fares_step creation grows fun missing =>
    madeBefore_of_reached creation paths missing⟩
  · rw [strictly, getElem?_oneByOne, command]
    rfl
  · rw [List.getElem?_zipWith, getElem?_oneByOne, command, now]
    rfl

/-- A file that is asked for twice is made once.  The second time it is there already, but
in a batch it was missing when the checks were made. -/
theorem handle_creations_repeated :
    let document := Text.ofString "CREATE FILE a;CREATE FILE a;"
    let commands := naming .createFile [Text.ofString "a", Text.ofString "a"]
    let strict := strictly .none commands .empty
    let batch := handle .none (Pattern.ofKind .createFile) document .empty
    (Kind.createFile = .createFile ∨ Kind.createFile = .createFolder) ∧
    (Pattern.ofKind .createFile).commands document = .ok commands ∧
    (List.zipWith settle commands strict.answers).map (·.status) =
      [.succeeded, .alreadyExists] ∧
    batch.tree = strict.tree ∧
    ∃ outcomes messages, batch.answer = .ok ⟨outcomes, messages⟩ ∧
      ∃ outcome, outcomes[1]? = some outcome ∧ outcome.status = .failed := by
  intro document commands strict batch
  have creates : Kind.createFile = .createFile ∨ Kind.createFile = .createFolder := .inl rfl
  have extracted : (Pattern.ofKind .createFile).commands document = .ok commands := by decide
  obtain ⟨paths, outcomes, messages, commandsEq, answer, last, -, -, each⟩ :=
    handle_creations creates document .empty
  have same : paths = [Text.ofString "a", Text.ofString "a"] := by
    have equal := Except.ok.inj (commandsEq.symm.trans extracted)
    exact List.map_injective_iff.mpr (fun path other same => by simpa using same) equal
  subst same
  obtain ⟨finished, outcome, here, settled, fares⟩ := each 1 _ rfl
  have second :
      strict.answers[1]? = some (.ok (.alreadyExists .createFile [Text.ofString "a"])) := by
    decide
  obtain rfl := Option.some.inj (second.symm.trans here)
  refine ⟨creates, extracted, by decide, last, outcomes, messages, answer, outcome, settled, ?_⟩
  change Fares _ _ _ _ _ .alreadyExists _ at fares
  generalize outcome.status = status at fares
  cases fares with
  | there checked => exact absurd checked (by decide)
  | welcome made folders leads => nomatch folders
  | unwelcome made other => rfl

/-- A folder that is asked for behind another one can turn out to be a file. -/
theorem folder_turns_out_file :
    let tree : Tree := ⟨[([Text.ofString "f"], .file [])]⟩
    let document := Text.ofString "CREATE FOLDER n;CREATE FOLDER n/../f;"
    let commands := naming .createFolder [Text.ofString "n", Text.ofString "n/../f"]
    (Pattern.ofKind .createFolder).commands document = .ok commands ∧
    MadeBefore commands tree (Text.ofString "n/../f") 1 ∧
    (List.zipWith settle commands (strictly .none commands tree).answers).map (·.status) =
      [.succeeded, .alreadyExists] ∧
    ((handle .none (Pattern.ofKind .createFolder) document tree).answer.map fun batch =>
      batch.outcomes.map (·.status)) = .ok [.succeeded, .failed] := by
  intro tree document commands
  refine ⟨by decide, ⟨by decide, 0, by decide, by decide, by decide⟩, by decide, by decide⟩

end Batch

end CommandFile
