import CommandFile.Failure
import CommandFile.Record

/-!
# Outcomes

What became of one statement, and the line that tells it.  Only an outcome without the
targets that its phrase names has no line.
-/

namespace CommandFile

inductive Status
  | succeeded
  | alreadyExists
  | failed
deriving DecidableEq, Repr

namespace Status

def all : List Status := [.succeeded, .alreadyExists, .failed]

def name : Status → String
  | .succeeded => "succeeded"
  | .alreadyExists => "already_exists"
  | .failed => "failed"

def ofName? (name : String) : Option Status := all.find? (·.name = name)

end Status

structure Outcome where
  kind : Kind
  status : Status
  targets : List Text
  cause? : Option String
deriving DecidableEq, Repr

inductive Category
  | success
  | warn
  | error
  | info
deriving DecidableEq, Repr

namespace Category

def name : Category → String
  | .success => "success"
  | .warn => "warn"
  | .error => "error"
  | .info => "info"

def level : Category → Level
  | .success => .success
  | .warn => .warning
  | .error => .error
  | .info => .info

end Category

structure Message where
  category : Category
  text : String
deriving DecidableEq, Repr

namespace Kind

def action : Kind → String
  | .createFile => "create file"
  | .createFolder => "create folder"
  | .deleteFile => "delete file"
  | .deleteFolder => "delete folder"
  | .deleteForce => "force delete"
  | .write => "write to"
  | .append => "append to"
  | .rename => "rename"

def phrase : Kind → List String
  | .createFile => ["created a new file at \"", "\""]
  | .createFolder => ["created a new folder at \"", "\""]
  | .deleteFile => ["deleted a file at \"", "\""]
  | .deleteFolder => ["deleted a folder at \"", "\""]
  | .deleteForce => ["file/folder at \"", "\" is deleted (or not found!)"]
  | .write => ["wrote the specified content in \"", "\""]
  | .append => ["appended the specified content in \"", "\""]
  | .rename => ["renamed \"", "\" to \"", "\""]

end Kind

namespace Outcome

def member {α : Type} (ofName? : String → Option α) : Value → Except Problem α
  | .string text =>
      match ofName? (String.ofList text) with
      | some found => .ok found
      | none => .error .notMember
  | _ => .error .notMember

def targetsOf (table : Table) (name : String) : Except (List Issue) (List Text) :=
  match table.get? name.toList with
  | none => .error [⟨[name], .absent⟩]
  | some value => Record.strings name value

def causeOf : Value → Except Problem (Option String)
  | .null => .ok none
  | value => (Record.string value).map fun text => some (String.ofList text)

def ofTable (table : Table) : Except (List Issue) Outcome :=
  let kind := Record.fieldOf table "kind" (member Kind.ofName?)
  let status := Record.fieldOf table "status" (member Status.ofName?)
  let targets := targetsOf table "targets"
  let cause := Record.fieldOr table "cause" causeOf none
  Record.both (Record.both (Record.both (kind.map Outcome.mk) status) targets) cause

def succeeded (kind : Kind) (targets : List Text) : Outcome :=
  ⟨kind, .succeeded, targets, none⟩

def alreadyExists (kind : Kind) (targets : List Text) : Outcome :=
  ⟨kind, .alreadyExists, targets, none⟩

def failed (kind : Kind) (targets : List Text) (failure : Failure) : Outcome :=
  ⟨kind, .failed, targets, some failure.cause⟩

def isFailed (outcome : Outcome) : Bool := outcome.status = .failed

/-- Fills the gaps between words with targets, of which `index` are used already. -/
def fill (index : Nat) : List String → List Text → Except Failure String
  | [], _ => .ok ""
  | [words], _ => .ok words
  | _ :: _ :: _, [] => .error (.noTarget index)
  | words :: next :: others, target :: targets =>
      match fill (index + 1) (next :: others) targets with
      | .error failure => .error failure
      | .ok rest => .ok (words ++ String.ofList target ++ rest)

def message (outcome : Outcome) : Except Failure Message :=
  match outcome.status, outcome.targets with
  | .succeeded, targets => (fill 0 outcome.kind.phrase targets).map (⟨.success, ·⟩)
  | _, [] => .error .noPath
  | .alreadyExists, target :: _ =>
      .ok ⟨.warn, s!"\"{String.ofList target}\", already exists!"⟩
  | .failed, target :: _ =>
      let cause := outcome.cause?.getD "None"
      .ok ⟨.error,
        s!"failed to {outcome.kind.action} \"{String.ofList target}\": {cause}"⟩

def failures (outcomes : List Outcome) : Nat := outcomes.countP isFailed

end Outcome

/-- The statement in a table.  A kind that is missing counts as none of the kinds. -/
def Command.ofTable (table : Table) : Except (List Issue) Command :=
  let kind := Outcome.member Kind.ofName? ((table.get? (Text.ofString "kind")).getD .null)
  let args := Record.strings "args" ((table.get? (Text.ofString "args")).getD .null)
  Record.both
    ((kind.mapError fun problem => [(⟨["kind"], problem⟩ : Issue)]).map Command.mk) args

end CommandFile
