import CommandFile.Failure

/-!
# Loggers

A logger makes the rows of one part of the program.  Its context goes into every row.
Adding to the context gives a new logger, and the old one stays as it was.
-/

namespace CommandFile

structure Logger where
  source : String
  context : List (String × String)
deriving DecidableEq, Repr

namespace Logger

def named (source : String) : Logger := ⟨source, []⟩

/-- Puts an entry into a context, in the place of the one under its key. -/
def put : List (String × String) → String × String → List (String × String)
  | [], entry => [entry]
  | old :: others, entry =>
      if old.1 = entry.1 then entry :: others else old :: put others entry

def withContext (logger : Logger) (entries : List (String × String)) : Logger :=
  ⟨logger.source, entries.foldl put logger.context⟩

def row (logger : Logger) (level : Level) (message : String) : LogRow :=
  ⟨level, logger.source, message, logger.context, none⟩

def rowOn (logger : Logger) (failure message : String) : LogRow :=
  ⟨.error, logger.source, message, logger.context, some failure⟩

def rowAt (logger : Logger) (level message : String) : Except Failure LogRow :=
  match Level.ofName? level with
  | some level => .ok (logger.row level message)
  | none => .error (.unknownLevel level)

@[simp] theorem withContext_nil (logger : Logger) : logger.withContext [] = logger := rfl

@[simp] theorem rowAt_name (logger : Logger) (level : Level) (message : String) :
    logger.rowAt level.name message = .ok (logger.row level message) := by
  simp [rowAt, Level.ofName?_name]

end Logger

end CommandFile
