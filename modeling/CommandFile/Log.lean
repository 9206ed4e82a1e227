/-!
# Log rows

What the library says beside its answers.  A row names the part of the program that it
comes from and the context that this part was given.
-/

namespace CommandFile

inductive Level
  | trace
  | debug
  | info
  | success
  | warning
  | error
  | critical
deriving DecidableEq, Repr

namespace Level

def all : List Level := [.trace, .debug, .info, .success, .warning, .error, .critical]

def name : Level → String
  | .trace => "TRACE"
  | .debug => "DEBUG"
  | .info => "INFO"
  | .success => "SUCCESS"
  | .warning => "WARNING"
  | .error => "ERROR"
  | .critical => "CRITICAL"

def severity : Level → Nat
  | .trace => 5
  | .debug => 10
  | .info => 20
  | .success => 25
  | .warning => 30
  | .error => 40
  | .critical => 50

def ofName? (name : String) : Option Level := all.find? (·.name = name)

theorem ofName?_name (level : Level) : ofName? level.name = some level := by
  cases level <;> rfl

end Level

/-- `failure` names the failure that was being handled, if one was. -/
structure LogRow where
  level : Level
  source : String
  message : String
  context : List (String × String)
  failure : Option String
deriving DecidableEq, Repr

abbrev Log := List LogRow

namespace LogRow

def plain (level : Level) (source message : String) : LogRow :=
  ⟨level, source, message, [], none⟩

end LogRow

end CommandFile
