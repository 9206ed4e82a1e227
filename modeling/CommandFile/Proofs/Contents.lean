import CommandFile.Proofs.Attempts
import CommandFile.Proofs.Decomposition
import CommandFile.Proofs.Selections
import Mathlib.Data.List.Induction

/-!
# Contents of files

A write or an append to a plain name succeeds, unless the name is that of a folder or a
link, or the writing is at fault.  A pass takes all writes before all appends, so in the end a
file holds the last body that was written to it, and behind that the bodies that were appended.
Bodies go into their files in the order of their statements.
-/

namespace CommandFile

/-- A name whose path is a step to an entry of the working directory. -/
structure Name.Plain (name : Name) : Prop where
  proper : name.Proper
  slashless : '/' ∉ name
  nulless : '\x00' ∉ name

@[simp] theorem Text.isBlank_trim (text : Text) : text.trim.isBlank = text.isBlank := by
  simp only [trim, trimRight, isBlank_reverse, isBlank_trimLeft]

/-- A path of a statement is blank only if it is empty, since it has been trimmed. -/
theorem Kind.isBlank_of_mem_commands {kind : Kind} {document : Text} {command : Command}
    (inside : command ∈ kind.commands document) {path : Text} (named : path ∈ command.path?)
    (nonempty : path ≠ []) : path.isBlank = false := by
  obtain ⟨row, member, rfl⟩ := List.mem_map.mp inside
  obtain ⟨inner, captures, -, -, rfl⟩ := kind.exists_read_of_mem_rows member
  obtain ⟨capture, -, rfl⟩ := List.mem_map.mp (List.mem_of_mem_head? named)
  rw [Ne, Text.trim_eq_nil_iff, Bool.not_eq_true] at nonempty
  rwa [Text.isBlank_trim]

/-! ## Plain names -/

namespace Tree

variable {tree later last : Tree} {name : Name} {append : Bool}

def Writable (tree : Tree) (name : Name) : Prop :=
  ∀ entry ∈ tree.at? [name], ∃ content, entry = .file content

/-- What a file of the working directory holds; nothing if it is missing. -/
def bytesAt (tree : Tree) (name : Name) : Bytes :=
  match tree.at? [name] with
  | some (.file content) => content
  | _ => []

theorem screen_of_plain (plain : name.Plain) : screen name = .ok () := by
  have named : name ≠ [] := fun none => plain.proper.1.1 (.inl none)
  have short : (Utf8.encode name).length ≤ Name.longest := by
    simpa [Name.tooLong] using plain.proper.2
  have fits : ¬ Path.tooMany ≤ (Utf8.encode name).length := by
    simp only [Name.longest, Path.tooMany] at short ⊢
    omega
  rw [screen, if_neg named, if_neg fits]

theorem steps_of_plain (plain : name.Plain) : Path.steps name = [name] := by
  have named : name ≠ [] := fun none => plain.proper.1.1 (.inl none)
  have single : Path.parts name = [name] := by
    simp [Path.parts, Text.pieces_of_free plain.slashless, named]
  have unclosed : name.getLast? ≠ some '/' :=
    fun closed => plain.slashless (List.mem_of_getLast? closed)
  simp [Path.steps, single, unclosed]

theorem goal?_of_plain (plain : name.Plain) (writable : tree.Writable name) :
    tree.goal? name = some [name] := by
  have opens : Opens true [] := by simp [Opens]
  rw [goal?, land_of_screened (screen_of_plain plain), steps_of_plain plain]
  cases found : tree.at? [name] with
  | none =>
      rw [walk_missing opens plain.proper found]
      rfl
  | some entry =>
      obtain ⟨content, rfl⟩ := writable entry found
      rw [walk_file opens plain.proper found]
      rfl

/-! ## Bodies for files -/

/-- What a file holds when bodies have been written to it, or appended, one after another. -/
def contentAfter (append : Bool) (old : Bytes) (bodies : List Text) : Bytes :=
  bodies.foldl (fun old body => Operation.written append old (Utf8.encode body)) old

theorem contentAfter_write (old : Bytes) (bodies : List Text) :
    contentAfter false old bodies = (bodies.getLast?.map Utf8.encode).getD old := by
  induction bodies using List.reverseRecOn with
  | nil => rfl
  | append_singleton bodies body _ =>
      simp [contentAfter, Operation.written]

theorem contentAfter_append (old : Bytes) (bodies : List Text) :
    contentAfter true old bodies = old ++ bodies.flatMap Utf8.encode := by
  unfold contentAfter
  induction bodies generalizing old with
  | nil => simp
  | cons body bodies ih =>
      rw [List.foldl_cons, ih, List.flatMap_cons, Operation.written, if_pos rfl, List.append_assoc]

structure Takes (append : Bool) (bodies : Name → List Text) (tree later : Tree) : Prop where
  given : ∀ name, bodies name ≠ [] →
    later.at? [name] = some (.file (contentAfter append (tree.bytesAt name) (bodies name)))
  spared : ∀ location, (∀ name, location = [name] → bodies name = []) →
    later.at? location = tree.at? location

variable {bodies others : Name → List Text}

theorem takes_refl (append : Bool) (tree : Tree) : tree.Takes append (fun _ => []) tree where
  given := fun _ some => absurd rfl some
  spared := fun _ _ => rfl

theorem takes_put (append : Bool) (tree : Tree) (name : Name) (body : Text) :
    tree.Takes append (fun other => if name = other then [body] else []) (tree.put [name]
      (.file (Operation.written append (tree.bytesAt name) (Utf8.encode body)))) where
  given := by
    intro other some
    have same : name = other := by simpa using some
    rw [at?_put _ (by simp), if_pos (by rw [same]), if_pos same, same]
    rfl
  spared := by
    intro location away
    rw [at?_put _ (by simp), if_neg]
    intro same
    simpa using away name same

theorem Takes.at?_of_no_bodies (takes : tree.Takes append bodies later)
    (none : bodies name = []) : later.at? [name] = tree.at? [name] := by
  apply takes.spared
  simpa using none

theorem Takes.bytesAt (takes : tree.Takes append bodies later) (name : Name) :
    later.bytesAt name = contentAfter append (tree.bytesAt name) (bodies name) := by
  by_cases none : bodies name = []
  · rw [none, Tree.bytesAt, takes.at?_of_no_bodies none]
    rfl
  · rw [Tree.bytesAt, takes.given name none]

theorem Takes.writable (takes : tree.Takes append bodies later) (writable : tree.Writable name) :
    later.Writable name := by
  by_cases none : bodies name = []
  · unfold Writable
    rwa [takes.at?_of_no_bodies none]
  · intro entry found
    rw [takes.given name none] at found
    exact ⟨_, (Option.some.inj found).symm⟩

theorem Takes.at?_of_neither {later last : Tree} {after : Bool}
    (takes : tree.Takes append bodies later) (takesOn : later.Takes after others last)
    {location : Location} (none : ∀ name, location = [name] → bodies name ++ others name = []) :
    last.at? location = tree.at? location := by
  simp only [List.append_eq_nil_iff] at none
  have before := takes.spared location fun name same => (none name same).1
  have behind := takesOn.spared location fun name same => (none name same).2
  exact behind.trans before

theorem Takes.trans (takes : tree.Takes append bodies later)
    (takesOn : later.Takes append others last) :
    tree.Takes append (fun name => bodies name ++ others name) last where
  given := by
    intro name some
    have folds : contentAfter append (tree.bytesAt name) (bodies name ++ others name) =
        contentAfter append (later.bytesAt name) (others name) := by
      rw [takes.bytesAt]
      exact List.foldl_append
    -- Without further bodies it is left as it was, and the first part must have given some.
    by_cases none : others name = []
    · have earlier : bodies name ≠ [] := by simpa [none] using some
      rw [none, List.append_nil, takesOn.at?_of_no_bodies none, takes.given name earlier]
    · rw [folds, takesOn.given name none]
  spared := fun _ none => takes.at?_of_neither takesOn none

theorem Takes.at?_of_appends (takes : tree.Takes false bodies later)
    (takesOn : later.Takes true others last) (given : bodies name ++ others name ≠ []) :
    last.at? [name] = some (.file
      (((bodies name).getLast?.map Utf8.encode).getD (tree.bytesAt name) ++
        (others name).flatMap Utf8.encode)) := by
  rw [← contentAfter_write]
  by_cases none : others name = []
  · have earlier : bodies name ≠ [] := by simpa [none] using given
    rw [takesOn.at?_of_no_bodies none, takes.given name earlier, none, List.flatMap_nil,
      List.append_nil]
  · rw [takesOn.given name none, contentAfter_append, takes.bytesAt]

end Tree

/-! ## Runs of writes and of appends -/

structure Faults.SparesFiles (faults : Faults) : Prop where
  opening : ∀ path, faults .opening path = Option.none
  encoding : ∀ content, faults .encoding content = Option.none
  writing : ∀ path, faults .writing path = Option.none

@[simp] theorem Faults.sparesFiles_none : Faults.none.SparesFiles :=
  ⟨fun _ => rfl, fun _ => rfl, fun _ => rfl⟩

theorem Operation.writeFile_of_sparesFiles {faults : Faults} (spares : faults.SparesFiles)
    (path content : Text) (append : Bool) (tree : Tree) :
    writeFile faults path content append tree = writeFile .none path content append tree := by
  have short : faults.shortfall? path content = none := by
    simp [Faults.shortfall?, Faults.break?, Faults.failure?, spares.encoding, spares.writing]
  have puts : ∀ bytes, putInto faults path append tree bytes =
      putInto .none path append tree bytes := by
    simp [putInto, callUnder, Faults.failure?, spares.opening, Faults.none]
  simp only [writeFile, short, puts, Faults.shortfall?_none]

theorem Operation.writeFile_of_plain {faults : Faults} (spares : faults.SparesFiles) {tree : Tree}
    {name : Name} (plain : name.Plain) (solid : name.isBlank = false)
    (writable : tree.Writable name) (append : Bool) (body : Text) :
    let effect := writeFile faults name body append tree
    effect.answer = .ok () ∧
      effect.tree =
        tree.put [name] (.file (written append (tree.bytesAt name) (Utf8.encode body))) := by
  intro effect
  rw [show effect = _ from writeFile_of_sparesFiles spares name body append tree]
  have goalHere := Tree.goal?_of_plain plain writable
  rcases writeFile_cases name body append tree with
    ⟨location, old, -, goal, -, before, last, answer⟩ | ⟨nowhere, -⟩
  · obtain rfl := Option.some.inj (goalHere.symm.trans goal)
    have same : tree.bytesAt name = old := by
      rcases before with ⟨missing, rfl⟩ | found
      · rw [Tree.bytesAt, missing]
      · rw [Tree.bytesAt, found]
    rw [same]
    exact ⟨answer, last⟩
  · nomatch goalHere.symm.trans (nowhere ⟨solid, plain.nulless⟩)

namespace Batch

variable {faults : Faults} {tree : Tree} {append : Bool} {commands : List Command}

def bodyKind (append : Bool) : Kind := if append then .append else .write

def bodiesFor (commands : List Command) (name : Name) : List Text :=
  commands.filterMap fun command =>
    match command.args with
    | [path, body] => if path = name then some body else none
    | _ => none

theorem bodiesFor_append (commands others : List Command) (name : Name) :
    bodiesFor (commands ++ others) name = bodiesFor commands name ++ bodiesFor others name :=
  List.filterMap_append

def Gives (tree : Tree) (append : Bool) (command : Command) : Prop :=
  ∃ (name : Name) (body : Text), command = ⟨bodyKind append, [name, body]⟩ ∧ name.Plain ∧
    name.isBlank = false ∧ tree.Writable name

theorem Gives.takes {later : Tree} {bodies : Name → List Text} {command : Command}
    (gives : Gives tree append command) {other : Bool} (takes : tree.Takes other bodies later) :
    Gives later append command := by
  obtain ⟨name, body, same, plain, solid, writable⟩ := gives
  exact ⟨name, body, same, plain, solid, takes.writable writable⟩

theorem perform_of_gives (spares : faults.SparesFiles) {command : Command}
    (gives : Gives tree append command) :
    let effect := perform faults command tree
    effect.answer = .ok (.succeeded command.kind command.targets) ∧
      tree.Takes append (bodiesFor [command]) effect.tree := by
  obtain ⟨name, body, rfl, plain, solid, writable⟩ := gives
  obtain ⟨answer, last⟩ := Operation.writeFile_of_plain spares plain solid writable append body
  have performs : perform faults ⟨bodyKind append, [name, body]⟩ tree =
      conclude (bodyKind append) [name] (Operation.writeFile faults name body append tree) := by
    cases append <;> rfl
  have bodies : bodiesFor [⟨bodyKind append, [name, body]⟩] =
      fun other => if name = other then [body] else [] := by
    funext other
    simp only [bodiesFor]
    split <;> simp_all
  rw [performs, bodies]
  refine ⟨?_, ?_⟩
  · simp only [conclude, answer]
    cases append <;> rfl
  · simp only [conclude, last]
    exact Tree.takes_put append tree name body

theorem strictly_of_gives (spares : faults.SparesFiles)
    (gives : ∀ command ∈ commands, Gives tree append command) :
    let settled := strictly faults commands tree
    settled.answers =
        commands.map (fun command => .ok (.succeeded command.kind command.targets)) ∧
      tree.Takes append (bodiesFor commands) settled.tree := by
  induction commands generalizing tree with
  | nil => exact ⟨rfl, Tree.takes_refl append tree⟩
  | cons command commands ih =>
      obtain ⟨here, others⟩ := List.forall_mem_cons.mp gives
      obtain ⟨answer, takes⟩ := perform_of_gives spares here
      obtain ⟨answers, takesOn⟩ := ih fun other inside => (others other inside).takes takes
      refine ⟨congrArg₂ List.cons answer answers, ?_⟩
      have bodies : bodiesFor (command :: commands) =
          fun name => bodiesFor [command] name ++ bodiesFor commands name := by
        funext name
        exact bodiesFor_append [command] commands name
      rw [bodies]
      exact takes.trans takesOn

theorem zipWith_settle_ok (commands : List Command) (outcome : Command → Outcome) :
    List.zipWith settle commands (commands.map fun command => .ok (outcome command)) =
      commands.map outcome := by
  induction commands with
  | nil => rfl
  | cons command commands ih => exact congrArg (outcome command :: ·) ih

theorem handle_of_gives (calm : faults.Calm) (spares : faults.SparesFiles) {document : Text}
    (gives : ∀ command ∈ (bodyKind append).commands document, Gives tree append command) :
    let effect := handle faults (Pattern.ofKind (bodyKind append)) document tree
    tree.Takes append (bodiesFor ((bodyKind append).commands document)) effect.tree ∧
      ∃ batch, effect.answer = .ok batch ∧
        batch.outcomes = ((bodyKind append).commands document).map
          (fun command => .succeeded command.kind command.targets) ∧
        List.Forall₂ Tells batch.outcomes batch.messages := by
  have single : bodyKind append ∈ immediate := by cases append <;> decide
  obtain ⟨last, messages, answer, tells⟩ := handle_eq_strictly calm single document tree
  obtain ⟨answers, takes⟩ := strictly_of_gives spares gives
  rw [← last] at takes
  refine ⟨takes, _, answer, ?_, tells⟩
  rw [answers, zipWith_settle_ok]

theorem exists_of_mem_bodyKind {document : Text} {command : Command}
    (inside : command ∈ (bodyKind append).commands document) :
    ∃ path body, command = ⟨bodyKind append, [path, body]⟩ := by
  apply exists_pair_of_mem_commands _ inside
  cases append <;> rfl

theorem gives_of_plain {document : Text} {command : Command}
    (inside : command ∈ (bodyKind append).commands document)
    (plain : ∀ name ∈ command.path?, Name.Plain name ∧ tree.Writable name) :
    Gives tree append command := by
  obtain ⟨path, body, rfl⟩ := exists_of_mem_bodyKind inside
  obtain ⟨plainPath, writable⟩ := plain path rfl
  have named : path ≠ [] := fun none => plainPath.proper.1.1 (.inl none)
  exact ⟨path, body, rfl, plainPath, Kind.isBlank_of_mem_commands inside rfl named, writable⟩

theorem bodiesFor_ne_nil_iff (commands : List Command)
    (each : ∀ command ∈ commands, ∃ kind path body, command = ⟨kind, [path, body]⟩)
    (name : Name) :
    bodiesFor commands name ≠ [] ↔ ∃ command ∈ commands, name ∈ command.path? := by
  simp only [bodiesFor, Ne, List.filterMap_eq_nil_iff, not_forall]
  refine exists_congr fun command => ?_
  rw [exists_prop]
  refine and_congr_right fun inside => ?_
  obtain ⟨kind, path, body, rfl⟩ := each command inside
  simp [Command.path?]

end Batch

namespace Pass

open Batch

/-- Whichever way writes and appends alternate in a document, all of them succeed, and a file
holds the last body that was written to it, or else its old content, and behind that the
bodies that were appended. -/
theorem run_contents {faults : Faults} (calm : faults.Calm) (spares : faults.SparesFiles)
    {document : Text} {writes appends : List Command} {tree : Tree}
    (only : ∀ kind ∈ detectKinds document, kind ≠ .write → kind ≠ .append →
      (Pattern.ofKind kind).extract document = .ok [])
    (written : (Pattern.ofKind .write).commands document = .ok writes)
    (appended : (Pattern.ofKind .append).commands document = .ok appends)
    (plain : ∀ command ∈ writes ++ appends, ∀ name ∈ command.path?,
      Name.Plain name ∧ tree.Writable name) :
    let last := (run faults document tree).tree
    (∃ pass, (run faults document tree).answer = .ok pass ∧
      pass.outcomes =
        (writes ++ appends).map (fun command => .succeeded command.kind command.targets) ∧
      List.Forall₂ Tells pass.outcomes pass.messages) ∧
    (∀ command ∈ writes ++ appends, ∀ name ∈ command.path?,
      last.at? [name] = some (.file
        (((bodiesFor writes name).getLast?.map Utf8.encode).getD (tree.bytesAt name) ++
          (bodiesFor appends name).flatMap Utf8.encode))) ∧
    ∀ location, (∀ command ∈ writes ++ appends, ∀ name ∈ command.path?, location ≠ [name]) →
      last.at? location = tree.at? location := by
  intro last
  rw [Pattern.commands_ofKind] at written appended
  obtain rfl := Except.ok.inj written
  obtain rfl := Except.ok.inj appended
  obtain ⟨plainWrites, plainAppends⟩ := List.forall_mem_append.mp plain
  have allowed : ∀ kind ∈ [Kind.write, Kind.append], (Pattern.ofKind kind).excluded = [] := by
    simp [Pattern.ofKind]
  obtain ⟨lastRun, pass, batch, others, answer, here, there, outcomes, messages, -⟩ :=
    run_two calm (rfl : InTurn .write .append) allowed only tree
  have givesWrites : ∀ command ∈ (bodyKind false).commands document, Gives tree false command :=
    fun command inside => gives_of_plain inside (plainWrites command inside)
  have givesAppends : ∀ command ∈ (bodyKind true).commands document, Gives tree true command :=
    fun command inside => gives_of_plain inside (plainAppends command inside)
  obtain ⟨takes, batchWrites, answerWrites, outcomesWrites, tellsWrites⟩ :=
    handle_of_gives calm spares givesWrites
  obtain ⟨takesOn, batchAppends, answerAppends, outcomesAppends, tellsAppends⟩ :=
    handle_of_gives calm spares fun command inside => (givesAppends command inside).takes takes
  obtain rfl := Except.ok.inj (here.symm.trans answerWrites)
  obtain rfl := Except.ok.inj (there.symm.trans answerAppends)
  have named := bodiesFor_ne_nil_iff (Kind.write.commands document ++ Kind.append.commands document)
    (List.forall_mem_append.mpr
      ⟨fun command inside => ⟨_, exists_pair_of_mem_commands rfl inside⟩,
        fun command inside => ⟨_, exists_pair_of_mem_commands rfl inside⟩⟩)
  simp only [bodiesFor_append] at named
  refine ⟨⟨pass, answer, ?_, ?_⟩, fun command inside name path => ?_, fun location away => ?_⟩
  · rw [outcomes, outcomesWrites, outcomesAppends, List.map_append]
    rfl
  · rw [outcomes, messages]
    exact List.rel_append tellsWrites tellsAppends
  · rw [show last = _ from lastRun]
    exact takes.at?_of_appends takesOn ((named name).mpr ⟨command, inside, path⟩)
  · rw [show last = _ from lastRun]
    apply takes.at?_of_neither takesOn
    intro name same
    by_contra some
    obtain ⟨command, inside, path⟩ := (named name).mp some
    exact away command inside name path same

/-- What is appended to a file before it is written stands behind what is written. -/
theorem run_contents_interleaved :
    let a := Text.ofString "a"
    let b := Text.ofString "b"
    let document := Text.ofString ("APPEND TO a THIS CONTENT: \"1\";"
      ++ "WRITE TO a THIS CONTENT: \"2\";APPEND TO b THIS CONTENT: \"3\";")
    let tree : Tree := ⟨[([b], .file (Utf8.encode (Text.ofString "0")))]⟩
    let last := (run .none document tree).tree
    (∀ kind ∈ detectKinds document, kind ≠ .write → kind ≠ .append →
      (Pattern.ofKind kind).extract document = .ok []) ∧
    (Pattern.ofKind .write).commands document = .ok [⟨.write, [a, Text.ofString "2"]⟩] ∧
    (Pattern.ofKind .append).commands document =
      .ok [⟨.append, [a, Text.ofString "1"]⟩, ⟨.append, [b, Text.ofString "3"]⟩] ∧
    Name.Plain a ∧ tree.Writable a ∧ Name.Plain b ∧ tree.Writable b ∧
    last.at? [a] = some (.file (Utf8.encode (Text.ofString "21"))) ∧
    last.at? [b] = some (.file (Utf8.encode (Text.ofString "03"))) := by
  intro a b document tree last
  have only : ∀ kind ∈ detectKinds document, kind ≠ .write → kind ≠ .append →
      (Pattern.ofKind kind).extract document = .ok [] := by decide +kernel
  have plainA : Name.Plain a := ⟨⟨⟨by decide, by decide⟩, by decide⟩, by decide, by decide⟩
  have plainB : Name.Plain b := ⟨⟨⟨by decide, by decide⟩, by decide⟩, by decide, by decide⟩
  have writableA : tree.Writable a := by
    intro entry found
    rw [show tree.at? [a] = none by decide] at found
    nomatch found
  have writableB : tree.Writable b := fun entry found => ⟨_, (Option.some.inj found).symm⟩
  have written : (Pattern.ofKind .write).commands document =
      .ok [⟨.write, [a, Text.ofString "2"]⟩] := by decide +kernel
  have appended : (Pattern.ofKind .append).commands document =
      .ok [⟨.append, [a, Text.ofString "1"]⟩, ⟨.append, [b, Text.ofString "3"]⟩] := by
    decide +kernel
  have plain : ∀ command ∈ [Command.mk .write [a, Text.ofString "2"]] ++
      [⟨.append, [a, Text.ofString "1"]⟩, ⟨.append, [b, Text.ofString "3"]⟩],
      ∀ name ∈ command.path?, Name.Plain name ∧ tree.Writable name := by
    simp [Command.path?, plainA, plainB, writableA, writableB]
  obtain ⟨-, contents, -⟩ :=
    run_contents Faults.calm_none Faults.sparesFiles_none only written appended plain
  have contentsA := contents ⟨.append, [a, Text.ofString "1"]⟩ (by decide) a rfl
  have contentsB := contents ⟨.append, [b, Text.ofString "3"]⟩ (by decide) b rfl
  exact ⟨only, written, appended, plainA, writableA, plainB, writableB, contentsA.trans (by decide),
    contentsB.trans (by decide)⟩

end Pass

end CommandFile
