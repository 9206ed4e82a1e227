import CommandFile.Console.Markup
import CommandFile.Log
import CommandFile.Statement.Pattern
import CommandFile.Text.Charset
import CommandFile.Tree.Errno

/-!
# Failures

Why an operation, a batch or a pass did not do what it was asked for.  `message` is the
wording that reports and log rows show, and `cause` is what a failed outcome keeps.
-/

namespace CommandFile

inductive Failure
  /-- The path is nothing but white space. -/
  | blankPath (action : String) (path : Text)
  /-- Something is at the path and may not be read. -/
  | unreadable (path : Text)
  /-- The system refused an action on a path. -/
  | refused (action : String) (path : Text) (error : SystemError)
  /-- The system refused a call, and the caller adds nothing to that. -/
  | system (error : SystemError)
  | nulInPath
  | nulInCharset
  | charset (refusal : Charset.Refusal)
  /-- Bytes that have to be a text are none. -/
  | undecodable (refusal : Utf8.Refusal)
  /-- A text with surrogates has to be bytes. -/
  | unencodable (place : Unencodable)
  /-- A decimal integer has more digits than are converted. -/
  | tooManyDigits (limit count : Nat)
  /-- A statement or an outcome has no first path. -/
  | noPath
  /-- A phrase names a target that the outcome lacks. -/
  | noTarget (index : Nat)
  /-- A statement has another number of arguments than two. -/
  | argumentCount (count : Nat)
  | malformed (columns : Malformed)
  /-- Something was given for a work that is none. -/
  | notCallable (typeName : String)
  | negativeDelay
  /-- No level of the log has the name. -/
  | unknownLevel (name : String)
  | unmatchedTag (refusal : Markup.Refusal)
  | cancelled
  | foreign (name message : String)
deriving DecidableEq, Repr

namespace Failure

def name : Failure → String
  | .blankPath _ _ => "FileSystemError"
  | .unreadable _ => "FileSystemError"
  | .refused _ _ error =>
      if error.isMissing then "TargetMissingError"
      else if error.isTaken then "TargetExistsError"
      else "PermissionOrIOError"
  | .system error => error.name
  | .nulInPath => "ValueError"
  | .nulInCharset => "ValueError"
  | .charset (.unknown _) => "LookupError"
  | .charset (.unmarked _) => "UnicodeError"
  | .undecodable _ => "UnicodeDecodeError"
  | .unencodable _ => "UnicodeEncodeError"
  | .tooManyDigits _ _ => "ValueError"
  | .noPath => "IndexError"
  | .noTarget _ => "IndexError"
  | .argumentCount _ => "ValueError"
  | .malformed _ => "MalformedStatementError"
  | .notCallable _ => "TypeError"
  | .negativeDelay => "ValueError"
  | .unknownLevel _ => "ValueError"
  | .unmatchedTag _ => "MarkupError"
  | .cancelled => "CancelledError"
  | .foreign name _ => name

def failedTo (action : String) (path : Text) (reason : String) : String :=
  s!"Failed to {action} \x27{String.ofList path}\x27: {reason}"

def undecodableMessage (refusal : Utf8.Refusal) : String :=
  let last := refusal.offset + refusal.width - 1
  let place :=
    if refusal.width = 1 then
      let byte := String.ofList (Text.hexDigits 2 refusal.byte.toNat)
      s!"byte 0x{byte} in position {refusal.offset}"
    else s!"bytes in position {refusal.offset}-{last}"
  s!"'utf-8' codec can't decode {place}: {refusal.reason.words}"

def unencodableMessage (place : Unencodable) : String :=
  let digits := String.ofList (Text.hexDigits 4 place.code)
  let last := place.offset + place.width - 1
  let words :=
    if place.width = 1 then s!"character \x27\\u{digits}\x27 in position {place.offset}"
    else s!"characters in position {place.offset}-{last}"
  s!"\x27utf-8\x27 codec can\x27t encode {words}: surrogates not allowed"

def tooManyDigitsMessage (limit count : Nat) : String :=
  s!"Exceeds the limit ({limit} digits) for integer string conversion: "
    ++ s!"value has {count} digits; use sys.set_int_max_str_digits() to increase the limit"

def message : Failure → String
  | .blankPath action path => failedTo action path "Empty path"
  | .unreadable path => failedTo "access" path "Permission denied"
  | .refused action path error => failedTo action path error.shortMessage
  | .system error => error.message
  | .nulInPath => "embedded null byte"
  | .nulInCharset => "embedded null character"
  | .charset (.unknown name) => s!"unknown encoding: {String.ofList name}"
  | .charset (.unmarked width) => s!"UTF-{width} stream does not start with BOM"
  | .undecodable refusal => undecodableMessage refusal
  | .unencodable place => unencodableMessage place
  | .tooManyDigits limit count => tooManyDigitsMessage limit count
  | .noPath => "tuple index out of range"
  | .noTarget index => s!"Replacement index {index} out of range for positional args tuple"
  | .argumentCount count =>
      if count < 2 then s!"not enough values to unpack (expected 2, got {count})"
      else "too many values to unpack (expected 2)"
  | .malformed columns => columns.message
  | .notCallable typeName => s!"Expected a callable, got {typeName}"
  | .negativeDelay => "delay must not be negative"
  | .unknownLevel name => s!"Level \x27{name}\x27 does not exist"
  | .unmatchedTag refusal => refusal.message
  | .cancelled => ""
  | .foreign _ message => message

/-- The message, or the name of a failure that has none. -/
def cause (failure : Failure) : String :=
  if failure.message = "" then failure.name else failure.message

def path? : Failure → Option Text
  | .blankPath _ path => some path
  | .unreadable path => some path
  | .refused _ path _ => some path
  | _ => none

def origin? : Failure → Option String
  | .refused _ _ error => some error.name
  | _ => none

end Failure

end CommandFile
