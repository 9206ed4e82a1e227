import CommandFile.Batch

/-!
# Passes

A pass performs every statement of a document.  Its kinds come one after another in
dispatch order, so folders are there before files are put into them.  Kinds whose
markers the document lacks are left out.
-/

namespace CommandFile

structure Pass where
  results : List (Kind × List Outcome)
  messages : List Message
deriving DecidableEq, Repr

namespace Pass

def source : String := "handycmd.commands.dispatcher"

def ofKinds (faults : Faults) (document : Text) (kinds : List Kind) (tree : Tree)
    (turns : Kind → List Nat := fun _ => []) : Effect Pass :=
  match kinds with
  | [] => ⟨.ok ⟨[], []⟩, tree, []⟩
  | kind :: kinds =>
      let effect := Batch.handle faults (Pattern.ofKind kind) document tree (turns kind)
      match effect.answer with
      | .error failure => ⟨.error failure, effect.tree, effect.log⟩
      | .ok batch =>
          let rest := ofKinds faults document kinds effect.tree turns
          ⟨rest.answer.map fun pass =>
              ⟨(kind, batch.outcomes) :: pass.results, batch.messages ++ pass.messages⟩,
            rest.tree, effect.log ++ rest.log⟩

def run (faults : Faults) (document : Text) (tree : Tree)
    (turns : Kind → List Nat := fun _ => []) : Effect Pass :=
  match detectKinds document with
  | [] => ⟨.ok ⟨[], []⟩, tree, [.plain .debug source "No statement markers found"]⟩
  | kinds =>
      let names := String.intercalate ", " (kinds.map Kind.name)
      let effect := ofKinds faults document kinds tree turns
      ⟨effect.answer, effect.tree, .plain .info source s!"Dispatching {names}" :: effect.log⟩

def outcomes (pass : Pass) : List Outcome := pass.results.flatMap (·.2)

def failures (pass : Pass) : Nat := Outcome.failures pass.outcomes

end Pass

end CommandFile
