import CommandFile.Number.Numeral
import CommandFile.Tree.Path
import CommandFile.Value

/-!
# Fields of records

A record is filled from a table of values.  Each field has a type, and some values of
other types are converted: numbers and flags may be written as strings, and a flag may
stand for a number.  What cannot be converted is an issue; the issues of all fields are
told at once.
-/

namespace CommandFile

inductive Problem
  | absent
  | notPath
  | notFloat
  | unreadableFloat
  | belowLimit
  | notFlag
  | unreadableFlag
  | notString
  | notTuple
  | notMember
deriving DecidableEq, Repr

def Problem.name : Problem → String
  | .absent => "missing"
  | .notPath => "path_type"
  | .notFloat => "float_type"
  | .unreadableFloat => "float_parsing"
  | .belowLimit => "greater_than_equal"
  | .notFlag => "bool_type"
  | .unreadableFlag => "bool_parsing"
  | .notString => "string_type"
  | .notTuple => "tuple_type"
  | .notMember => "enum"

structure Issue where
  place : List String
  problem : Problem
deriving DecidableEq, Repr

namespace Record

def path : Value → Except Problem Path
  | .string text => .ok (.parse text)
  | _ => .error .notPath

def string : Value → Except Problem Text
  | .string text => .ok text
  | _ => .error .notString

/-- A number; integers have to be within the range of finite numbers. -/
def float : Value → Except Problem Number
  | .float number => .ok number
  | .boolean value => .ok (.ofInt (if value then 1 else 0))
  | .integer value =>
      match Number.ofInt value with
      | .infinite _ => .error .notFloat
      | number => .ok number
  | .string text =>
      match Numeral.readLoosely text with
      | some number => .ok number
      | none => .error .unreadableFloat
  | _ => .error .notFloat

def duration (value : Value) : Except Problem Number :=
  match float value with
  | .error problem => .error problem
  | .ok number => if number.isAtLeastZero then .ok number else .error .belowLimit

def trueWords : List String := ["1", "on", "t", "true", "y", "yes"]

def falseWords : List String := ["0", "off", "f", "false", "n", "no"]

def flagWord (text : Text) : Except Problem Bool :=
  let word := String.ofList (text.map Char.toLower)
  if trueWords.contains word then .ok true
  else if falseWords.contains word then .ok false
  else .error .unreadableFlag

def wordLimit : Nat := 9223372036854775808

/-- An integer that is zero or one.  One that does not fit into 64 bits is not looked
at. -/
def flagInteger (value : Int) : Except Problem Bool :=
  if value = 1 then .ok true
  else if value = 0 then .ok false
  else if -(wordLimit : Int) ≤ value && value < wordLimit then .error .unreadableFlag
  else .error .notFlag

def flagNumber : Number → Except Problem Bool
  | .finite negative mantissa exponent =>
      let (above, below) := Number.quotient mantissa exponent
      if above % below = 0 && above / below < wordLimit then
        flagInteger (if negative then -(above / below : Nat) else (above / below : Nat))
      else .error .notFlag
  | _ => .error .notFlag

def flag : Value → Except Problem Bool
  | .boolean value => .ok value
  | .integer value => flagInteger value
  | .float number => flagNumber number
  | .string text => flagWord text
  | _ => .error .notFlag

def fieldOr {α : Type} (table : Table) (name : String) (read : Value → Except Problem α)
    (default : α) : Except (List Issue) α :=
  match table.get? name.toList with
  | none => .ok default
  | some value => (read value).mapError fun problem => [⟨[name], problem⟩]

def fieldOf {α : Type} (table : Table) (name : String) (read : Value → Except Problem α) :
    Except (List Issue) α :=
  match table.get? name.toList with
  | none => .error [⟨[name], .absent⟩]
  | some value => (read value).mapError fun problem => [⟨[name], problem⟩]

def strings (name : String) : Value → Except (List Issue) (List Text)
  | .array items =>
      let read := items.zipIdx.map fun (item, index) =>
        (string item).mapError fun problem => (⟨[name, toString index], problem⟩ : Issue)
      let issues := read.filterMap fun
        | .error issue => some issue
        | .ok _ => none
      if issues = [] then
        .ok (read.filterMap fun
          | .ok text => some text
          | .error _ => none)
      else .error issues
  | _ => .error [⟨[name], .notTuple⟩]

/-- Applies a read function to a read argument, and keeps the issues of both. -/
def both {α β : Type} (function : Except (List Issue) (α → β))
    (argument : Except (List Issue) α) : Except (List Issue) β :=
  match function, argument with
  | .ok function, .ok argument => .ok (function argument)
  | .ok _, .error issues => .error issues
  | .error issues, .ok _ => .error issues
  | .error first, .error second => .error (first ++ second)

end Record

end CommandFile
