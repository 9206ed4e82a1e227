import CommandFile.Text.Quoted

/-!
# Reasons of the operating system

The reasons for which a call on the file tree is refused, with their numbers and
their wording.
-/

namespace CommandFile

inductive Errno
  | notPermitted
  | noEntry
  | inputOutput
  | accessDenied
  | busy
  | alreadyThere
  | notFolder
  | isFolder
  | invalid
  | noSpace
  | readOnly
  | nameTooLong
  | notEmpty
  | tooManyLinks
  | other (number : Nat)
deriving DecidableEq, Repr

namespace Errno

def number : Errno → Nat
  | .notPermitted => 1
  | .noEntry => 2
  | .inputOutput => 5
  | .accessDenied => 13
  | .busy => 16
  | .alreadyThere => 17
  | .notFolder => 20
  | .isFolder => 21
  | .invalid => 22
  | .noSpace => 28
  | .readOnly => 30
  | .nameTooLong => 36
  | .notEmpty => 39
  | .tooManyLinks => 40
  | .other number => number

def words : Errno → String
  | .notPermitted => "Operation not permitted"
  | .noEntry => "No such file or directory"
  | .inputOutput => "Input/output error"
  | .accessDenied => "Permission denied"
  | .busy => "Device or resource busy"
  | .alreadyThere => "File exists"
  | .notFolder => "Not a directory"
  | .isFolder => "Is a directory"
  | .invalid => "Invalid argument"
  | .noSpace => "No space left on device"
  | .readOnly => "Read-only file system"
  | .nameTooLong => "File name too long"
  | .notEmpty => "Directory not empty"
  | .tooManyLinks => "Too many levels of symbolic links"
  | .other number => s!"Unknown error {number}"

def known : List Errno :=
  [.notPermitted, .noEntry, .inputOutput, .accessDenied, .busy, .alreadyThere, .notFolder,
    .isFolder, .invalid, .noSpace, .readOnly, .nameTooLong, .notEmpty, .tooManyLinks]

def ofNumber (number : Nat) : Errno :=
  (known.find? (·.number = number)).getD (.other number)

@[simp] theorem number_ofNumber (number : Nat) : (ofNumber number).number = number := by
  unfold ofNumber
  cases found : known.find? (·.number = number) with
  | none => rfl
  | some errno => simpa using List.find?_some found

end Errno

/-- A refusal by the operating system: a number unless there is none, a reason, and the
paths that it names. -/
structure SystemError where
  code : Option Int
  reason : Text
  paths : List Text
deriving DecidableEq, Repr

namespace SystemError

def ofErrno (errno : Errno) (paths : List Text) : SystemError :=
  ⟨some errno.number, Text.ofString errno.words, paths⟩

def isMissing (error : SystemError) : Bool := error.code = some 2

def isTaken (error : SystemError) : Bool := error.code = some 17

def name (error : SystemError) : String :=
  match error.code with
  | some 1 => "PermissionError"
  | some 2 => "FileNotFoundError"
  | some 13 => "PermissionError"
  | some 17 => "FileExistsError"
  | some 20 => "NotADirectoryError"
  | some 21 => "IsADirectoryError"
  | _ => "OSError"

def message (error : SystemError) : String :=
  match error.code with
  | none => String.ofList error.reason
  | some code =>
      let head := s!"[Errno {code}] {String.ofList error.reason}"
      match error.paths with
      | [] => head
      | paths => head ++ ": " ++ String.intercalate " -> " (paths.map Text.quoted)

/-- The reason alone, or the whole message where there is no reason. -/
def shortMessage (error : SystemError) : String :=
  if error.reason = [] then error.message else String.ofList error.reason

end SystemError

end CommandFile
