import CommandFile.Proofs.Attempts
import CommandFile.Proofs.Passes

/-!
# Additions

A document without writes, renamings and deletions of files only adds to a tree.  Files keep
what they hold, and what is appended stands behind it; links keep their targets; and a folder
is removed by a statement of its own, when nothing is in it.
-/

namespace CommandFile

/-! ## Removing a folder -/

theorem Tree.exists_of_removeFolder {tree last : Tree} {path : Text}
    (removes : tree.removeFolder path = .ok last) :
    ∃ location, location ≠ [] ∧ tree.at? location = some .folder ∧
      tree.isEmptyAt location = true ∧ last = tree.remove location := by
  rcases tree.removeFolder_cases path with
    ⟨folder, name, closed, -, looked, empty, removed⟩ | free | ⟨errno, -, refused⟩
  · exact ⟨name :: folder, List.cons_ne_nil _ _, (lookUp_eq_ok_iff.mp looked).2, empty,
      Except.ok.inj (removes.symm.trans removed)⟩
  · nomatch removes.symm.trans free.removeFolder
  · nomatch removes.symm.trans refused

namespace Operation

theorem deleteFolder_cases (faults : Faults) (path : Text) (tree : Tree) :
    let last := (deleteFolder faults path tree).tree
    last = tree ∨ tree.removeFolder path = .ok last := by
  unfold deleteFolder unlessBlank
  split
  · exact .inl rfl
  · cases called : callUnder faults .rmdir path [] (tree.removeFolder path) with
    | ok after => exact .inr (eq_ok_of_callUnder called)
    | error failure => exact .inl rfl

end Operation

/-! ## What is kept -/

structure Moment where
  command : Command
  tree : Tree

namespace Moment

def Appends (moment : Moment) (location : Location) : Prop :=
  moment.command.kind = .append ∧
    ∃ path ∈ moment.command.path?, moment.tree.goal? path = some location

def Removes (moment : Moment) (location : Location) : Prop :=
  moment.command.kind = .deleteFolder ∧ moment.tree.at? location = some .folder ∧
    moment.tree.isEmptyAt location = true ∧
    ∃ path ∈ moment.command.path?,
      moment.tree.removeFolder path = .ok (moment.tree.remove location)

end Moment

structure Spared (moments : List Moment) (tree last : Tree) : Prop where
  files : ∀ location content, tree.at? location = some (.file content) →
    ∃ more, last.at? location = some (.file (content ++ more)) ∧
      (more ≠ [] → ∃ moment ∈ moments, moment.Appends location)
  links : ∀ location target, tree.at? location = some (.link target) →
    last.at? location = some (.link target)
  folders : ∀ location, tree.at? location = some .folder →
    last.at? location = some .folder ∨ ∃ moment ∈ moments, moment.Removes location

section Entries

variable {moments others : List Moment} {tree later last : Tree}

theorem Tree.Keeps.spared (keeps : tree.Keeps last) (moments : List Moment) :
    Spared moments tree last where
  files := fun location content found =>
    ⟨[], by simpa using keeps location _ found, fun some => absurd rfl some⟩
  links := fun location _ found => keeps location _ found
  folders := fun location found => .inl (keeps location _ found)

theorem Spared.trans (spared : Spared moments tree later) (sparedOn : Spared others later last) :
    Spared (moments ++ others) tree last where
  files := by
    intro location content found
    obtain ⟨more, there, appends⟩ := spared.files location content found
    obtain ⟨evenMore, thereToo, appendsOn⟩ := sparedOn.files location _ there
    refine ⟨more ++ evenMore, by rw [thereToo, List.append_assoc], fun some => ?_⟩
    by_cases none : more = []
    · obtain ⟨moment, inside, appended⟩ := appendsOn (by simpa [none] using some)
      exact ⟨moment, List.mem_append_right _ inside, appended⟩
    · obtain ⟨moment, inside, appended⟩ := appends none
      exact ⟨moment, List.mem_append_left _ inside, appended⟩
  links := fun location target found =>
    sparedOn.links location target (spared.links location target found)
  folders := by
    intro location found
    rcases spared.folders location found with there | ⟨moment, inside, removed⟩
    · rcases sparedOn.folders location there with thereToo | ⟨moment, inside, removed⟩
      · exact .inl thereToo
      · exact .inr ⟨moment, List.mem_append_right _ inside, removed⟩
    · exact .inr ⟨moment, List.mem_append_left _ inside, removed⟩

theorem spared_put {moment : Moment} {location : Location} (appends : moment.Appends location)
    (inside : location ≠ []) {old : Bytes}
    (before : tree.at? location = none ∧ old = [] ∨ tree.at? location = some (.file old))
    (more : Bytes) : Spared [moment] tree (tree.put location (.file (old ++ more))) := by
  have onlyOld : ∀ entry, tree.at? location = some entry → entry = .file old := by
    intro entry found
    rcases before with ⟨missing, -⟩ | there
    · nomatch missing.symm.trans found
    · exact Option.some.inj (found.symm.trans there)
  constructor
  case files =>
    intro place content found
    rw [Tree.at?_put _ inside]
    split
    · next here =>
        obtain rfl := Entry.file.inj (onlyOld _ (here ▸ found))
        exact ⟨more, rfl, fun _ => ⟨moment, List.mem_singleton_self _, here ▸ appends⟩⟩
    · exact ⟨[], by simpa using found, fun some => absurd rfl some⟩
  case links =>
    intro place target found
    rw [Tree.at?_put _ inside, if_neg]
    · exact found
    · rintro rfl
      nomatch onlyOld _ found
  case folders =>
    intro place found
    rw [Tree.at?_put _ inside, if_neg]
    · exact .inl found
    · rintro rfl
      nomatch onlyOld _ found

theorem spared_remove {moment : Moment} {location : Location} (removes : moment.Removes location)
    (inside : location ≠ []) (there : tree.at? location = some .folder) :
    Spared [moment] tree (tree.remove location) := by
  have kept : ∀ place entry, tree.at? place = some entry → entry ≠ .folder →
      (tree.remove location).at? place = some entry := by
    intro place entry found other
    rw [Tree.at?_remove _ inside, if_neg]
    · exact found
    · rintro rfl
      exact other (Option.some.inj (found.symm.trans there))
  constructor
  case files =>
    intro place content found
    have same := kept place _ found (by simp)
    exact ⟨[], by simpa using same, fun some => absurd rfl some⟩
  case links => exact fun place target found => kept place _ found (by simp)
  case folders =>
    intro place found
    by_cases here : place = location
    · subst here
      exact .inr ⟨moment, List.mem_singleton_self _, removes⟩
    · rw [Tree.at?_remove _ inside, if_neg here]
      exact .inl found

end Entries

/-! ## Statements -/

namespace Batch

variable {faults : Faults}

def additive : List Kind := [.createFolder, .createFile, .append, .deleteFolder]

theorem keeps_create {operation : Text → Tree → Effect Unit}
    (keeps : ∀ path (tree : Tree), tree.Keeps (operation path tree).tree)
    (item : Command × Except Failure Bool) (tree : Tree) :
    tree.Keeps (create operation item tree).tree := by
  obtain ⟨⟨kind, args⟩, checked⟩ := item
  cases args with
  | nil =>
      match checked with
      | .error failure => exact .refl tree
      | .ok true => exact .refl tree
      | .ok false => exact .refl tree
  | cons path others =>
      match checked with
      | .error failure => exact .refl tree
      | .ok true => exact .refl tree
      | .ok false => exact keeps path tree

theorem spared_append (faults : Faults) (args : List Text) (tree : Tree) :
    Spared [⟨⟨.append, args⟩, tree⟩] tree (perform faults ⟨.append, args⟩ tree).tree := by
  match args with
  | [] => exact (Tree.Keeps.refl tree).spared _
  | [path] => exact (Tree.Keeps.refl tree).spared _
  | path :: body :: other :: others => exact (Tree.Keeps.refl tree).spared _
  | [path, body] =>
      have performs : (perform faults ⟨.append, [path, body]⟩ tree).tree =
          (Operation.writeFile faults path body true tree).tree := rfl
      rw [performs]
      have appends (more : Bytes) {last : Tree}
          (put : tree.changeFile path (fun old => Operation.written true old more) = .ok last) :
          Spared [⟨⟨.append, [path, body]⟩, tree⟩] tree last := by
        rcases tree.changeFile_cases path fun old => Operation.written true old more with
          ⟨location, old, goal, inside, before, changed⟩ | ⟨-, errno, refused⟩
        · rw [← Except.ok.inj (changed.symm.trans put)]
          exact spared_put ⟨rfl, path, rfl, goal⟩ inside before _
        · nomatch put.symm.trans refused
      rcases Operation.writeFile_cases_of_faults faults path body true tree with
        ⟨-, put⟩ | ⟨-, same | ⟨count, failure, -, put⟩⟩
      · exact appends _ put
      · rw [same]
        exact (Tree.Keeps.refl tree).spared _
      · exact appends _ put

theorem spared_deleteFolder (faults : Faults) (args : List Text) (tree : Tree) :
    Spared [⟨⟨.deleteFolder, args⟩, tree⟩] tree
      (perform faults ⟨.deleteFolder, args⟩ tree).tree := by
  match args with
  | [] => exact (Tree.Keeps.refl tree).spared _
  | path :: others =>
      have performs : (perform faults ⟨.deleteFolder, path :: others⟩ tree).tree =
          (Operation.deleteFolder faults path tree).tree := rfl
      rw [performs]
      rcases Operation.deleteFolder_cases faults path tree with same | removes
      · rw [same]
        exact (Tree.Keeps.refl tree).spared _
      · obtain ⟨location, inside, there, empty, last⟩ := Tree.exists_of_removeFolder removes
        rw [last] at removes ⊢
        exact spared_remove ⟨rfl, there, empty, path, rfl, removes⟩ inside there

theorem spared_step (faults : Faults) (start : Tree) {command : Command}
    (adds : command.kind ∈ additive) (tree : Tree) :
    Spared [⟨command, tree⟩] tree (step faults start command tree).tree := by
  obtain ⟨kind, args⟩ := command
  cases kind with
  | createFolder =>
      have keeps (path : Text) (tree : Tree) :=
        (Operation.gainsFolders_createFolder faults path true tree).keeps
      exact (keeps_create keeps _ tree).spared _
  | createFile => exact (keeps_create (Operation.keeps_createFile faults) _ tree).spared _
  | append => exact spared_append faults args tree
  | deleteFolder => exact spared_deleteFolder faults args tree
  | write => simp [additive] at adds
  | rename => simp [additive] at adds
  | deleteFile => simp [additive] at adds
  | deleteForce => simp [additive] at adds

def moments (faults : Faults) (start : Tree) : List Command → Tree → List Moment
  | [], _ => []
  | command :: commands, tree =>
      ⟨command, tree⟩ :: moments faults start commands (step faults start command tree).tree

theorem spared_oneByOne (faults : Faults) (start : Tree) {commands : List Command}
    (adds : ∀ command ∈ commands, command.kind ∈ additive) (tree : Tree) :
    Spared (moments faults start commands tree) tree
      (oneByOne (step faults start) commands tree).tree := by
  induction commands generalizing tree with
  | nil => exact (Tree.Keeps.refl tree).spared _
  | cons command commands ih =>
      obtain ⟨here, later⟩ := List.forall_mem_cons.mp adds
      exact (spared_step faults start here tree).trans (ih later _)

end Batch

/-! ## Passes -/

namespace Pass

variable {faults : Faults} {document : Text}

def moments (faults : Faults) (document : Text) : List Kind → Tree → List Moment
  | [], _ => []
  | kind :: kinds, tree =>
      Batch.moments faults tree (kind.commands document) tree ++
        moments faults document kinds (Batch.handle faults (Pattern.ofKind kind) document tree).tree

theorem spared_ofKinds (calm : faults.Calm)
    (adds : ∀ kind : Kind, ∀ command ∈ kind.commands document, command.kind ∈ Batch.additive)
    (kinds : List Kind) (tree : Tree) :
    Spared (moments faults document kinds tree) tree (ofKinds faults document kinds tree).tree := by
  induction kinds generalizing tree with
  | nil => exact (Tree.Keeps.refl tree).spared _
  | cons kind kinds ih =>
      obtain ⟨here, -, messages, answer, -⟩ := Batch.handle_eq_oneByOne calm kind document tree
      rw [(ofKinds_cons_of_ok (fun _ => []) answer kinds).2]
      apply Spared.trans _ (ih _)
      rw [here]
      exact Batch.spared_oneByOne faults tree (adds kind) tree

/-- Where a document does not write, rename or delete files, a pass loses nothing but folders
that were deleted when they were empty, and changes nothing but the files that it appends to. -/
theorem run_spares (calm : faults.Calm)
    (additive : ∀ kind ∈ [Kind.write, .rename, .deleteFile, .deleteForce],
      (Pattern.ofKind kind).extract document = .ok []) (tree : Tree) :
    (∃ pass, (run faults document tree).answer = .ok pass) ∧
      Spared (moments faults document (detectKinds document) tree) tree
        (run faults document tree).tree := by
  have adds : ∀ kind : Kind, ∀ command ∈ kind.commands document, command.kind ∈ Batch.additive := by
    intro kind command inside
    obtain ⟨args, rfl, -⟩ := Batch.kind_of_mem_commands inside
    by_contra other
    have banned : kind ∈ [Kind.write, .rename, .deleteFile, .deleteForce] := by
      cases kind <;> simp_all [Batch.additive]
    have none : kind.rows document = [] :=
      Except.ok.inj ((Pattern.extract_ofKind kind document).symm.trans (additive kind banned))
    simp [Kind.commands, none] at inside
  obtain ⟨answer, last⟩ := run_eq_ofKinds faults document tree
  obtain ⟨batches, -, -, settled⟩ := ofKinds_ok calm document (detectKinds document) tree
  refine ⟨⟨_, answer.trans settled⟩, ?_⟩
  rw [last]
  exact spared_ofKinds calm adds (detectKinds document) tree

/-- An append that goes through a link, and two folders of which only the empty one is
removed. -/
theorem run_spares_linked :
    let f := Text.ofString "f"
    let g := Text.ofString "g"
    let h := Text.ofString "h"
    let l := Text.ofString "l"
    let document := Text.ofString
      "CREATE FILE f;APPEND TO l THIS CONTENT: \"1\";DELETE FOLDER g;DELETE FOLDER h;"
    let tree : Tree := ⟨[([f], .file (Utf8.encode (Text.ofString "0"))), ([l], .link f),
      ([g], .folder), ([h], .folder), ([f, h], .file [])]⟩
    let last := (run .none document tree).tree
    let moments := moments .none document (detectKinds document) tree
    Faults.none.Calm ∧
    (∀ kind ∈ [Kind.write, .rename, .deleteFile, .deleteForce],
      (Pattern.ofKind kind).extract document = .ok []) ∧
    Spared moments tree last ∧
    last.at? [f] = some (.file (Utf8.encode (Text.ofString "01"))) ∧
    last.at? [h] = some .folder ∧ ∃ moment ∈ moments, moment.Removes [g] := by
  intro f g h l document tree last moments
  have additive : ∀ kind ∈ [Kind.write, .rename, .deleteFile, .deleteForce],
      (Pattern.ofKind kind).extract document = .ok [] := by decide +kernel
  obtain ⟨-, spared⟩ := run_spares Faults.calm_none additive tree
  obtain ⟨appended, kept, removed⟩ :
      last.at? [f] = some (.file (Utf8.encode (Text.ofString "01"))) ∧
        last.at? [h] = some .folder ∧ last.at? [g] = none := by
    decide +kernel
  refine ⟨Faults.calm_none, additive, spared, appended, kept, ?_⟩
  rcases spared.folders [g] (by decide) with there | removes
  · nomatch removed.symm.trans there
  · exact removes

end Pass

end CommandFile
