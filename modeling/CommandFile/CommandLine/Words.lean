import CommandFile.Text.Basic

/-!
# Options among words

A word that begins with a dash and goes on names options.  A long option may take its
value from behind an equals sign, short ones stand together behind one dash, and a value
that is missing in the word is the next word, whatever that looks like.  Two dashes end
the options.
-/

namespace CommandFile.CommandLine

inductive Usage
  | unknownOption (name : Text)
  | valueMissing
  | valueUnexpected (name : Text)
  | commandMissing
  | unknownCommand (word : Text)
  | fileMissing
  | fileNotFound (path : Text)
  | fileIsFolder (path : Text)
  | badDelay (word : Text)
  | tooManyWords
deriving DecidableEq, Repr

def Usage.message : Usage → String
  | .unknownOption name => s!"No such option: {String.ofList name}"
  | .valueMissing => "An option lacks its value."
  | .valueUnexpected name => s!"Option {String.ofList name} does not take a value."
  | .commandMissing => "Missing command."
  | .unknownCommand word => s!"No such command: {String.ofList word}"
  | .fileMissing => "Missing argument: FILE"
  | .fileNotFound path => s!"File does not exist: {String.ofList path}"
  | .fileIsFolder path => s!"File is a directory: {String.ofList path}"
  | .badDelay word => s!"Not a number from 0 on: {String.ofList word}"
  | .tooManyWords => "Got more arguments than expected."

structure Switch (α : Type) where
  option : α
  long : List Text
  short : List Char
  takesValue : Bool

namespace Switch

def flag {α : Type} (option : α) (long : String) (short : List Char) : Switch α :=
  ⟨option, [long.toList], short, false⟩

def valued {α : Type} (option : α) (long : String) (short : List Char) : Switch α :=
  ⟨option, [long.toList], short, true⟩

end Switch

abbrev Given (α : Type) := List (α × Option Text)

structure WordReading (α : Type) where
  given : Given α
  waiting? : Option α

def readLetters {α : Type} (switches : List (Switch α)) :
    Text → Except Usage (WordReading α)
  | [] => .ok ⟨[], none⟩
  | letter :: rest =>
      match switches.find? (·.short.contains letter) with
      | none => .error (.unknownOption ['-', letter])
      | some switch =>
          if !switch.takesValue then
            (readLetters switches rest).map fun reading =>
              ⟨(switch.option, none) :: reading.given, reading.waiting?⟩
          else if rest = [] then .ok ⟨[], some switch.option⟩
          else .ok ⟨[(switch.option, some rest)], none⟩

def readWord {α : Type} (switches : List (Switch α)) (word : Text) :
    Except Usage (WordReading α) :=
  let name := word.takeWhile (· ≠ '=')
  let value? := (word.drop name.length).tail?
  match switches.find? (·.long.contains name) with
  | some switch =>
      match switch.takesValue, value? with
      | true, some value => .ok ⟨[(switch.option, some value)], none⟩
      | true, none => .ok ⟨[], some switch.option⟩
      | false, none => .ok ⟨[(switch.option, none)], none⟩
      | false, some _ => .error (.valueUnexpected name)
  | none =>
      match word with
      | '-' :: '-' :: _ => .error (.unknownOption name)
      | _ => readLetters switches word.tail

structure Reading (α : Type) where
  given : Given α
  words : List Text

namespace Reading

def give {α : Type} (given : Given α) (reading : Reading α) : Reading α :=
  ⟨given ++ reading.given, reading.words⟩

def addWord {α : Type} (word : Text) (reading : Reading α) : Reading α :=
  ⟨reading.given, word :: reading.words⟩

end Reading

def namesOptions (word : Text) : Bool := word.head? = some '-' && 1 < word.length

/-- Reads words.  Unless `mixed`, the first other word ends the options. -/
def readWords {α : Type} (switches : List (Switch α)) (mixed : Bool) :
    List Text → Except Usage (Reading α)
  | [] => .ok ⟨[], []⟩
  | word :: rest =>
      if word = ['-', '-'] then .ok ⟨[], rest⟩
      else if namesOptions word then
        match readWord switches word with
        | .error usage => .error usage
        | .ok ⟨given, none⟩ => (readWords switches mixed rest).map (·.give given)
        | .ok ⟨given, some option⟩ =>
            match rest with
            | [] => .error .valueMissing
            | value :: rest =>
                (readWords switches mixed rest).map
                  (·.give (given ++ [(option, some value)]))
      else if mixed then (readWords switches mixed rest).map (·.addWord word)
      else .ok ⟨[], word :: rest⟩

namespace Given

/-- The value that was given last for an option. -/
def value? {α : Type} [BEq α] (given : Given α) (option : α) : Option Text :=
  (given.reverse.find? (·.1 == option)).bind (·.2)

def has {α : Type} [BEq α] (given : Given α) (option : α) : Bool :=
  given.any (·.1 == option)

end Given

end CommandFile.CommandLine
