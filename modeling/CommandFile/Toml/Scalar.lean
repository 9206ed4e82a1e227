import CommandFile.Number.Numeral
import CommandFile.Value

/-!
# Numbers, dates and times in settings files

A reader takes the longest beginning that has its form and returns the value with what
follows.
-/

namespace CommandFile.Toml

inductive Refusal
  | malformed
  /-- A decimal integer has more digits than are converted. -/
  | tooManyDigits (count : Nat)
deriving DecidableEq, Repr

def orMalformed {α : Type} : Option α → Except Refusal α
  | some found => .ok found
  | none => .error .malformed

/-- Digits behind a first one; an underscore may stand before each. -/
def moreDigits (isDigit : Char → Bool) : Text → Text × Text
  | '_' :: digit :: rest =>
      if isDigit digit then
        let more := moreDigits isDigit rest
        (digit :: more.1, more.2)
      else ([], '_' :: digit :: rest)
  | digit :: rest =>
      if isDigit digit then
        let more := moreDigits isDigit rest
        (digit :: more.1, more.2)
      else ([], digit :: rest)
  | [] => ([], [])

def digits? (isDigit : Char → Bool) : Text → Option (Text × Text)
  | digit :: rest =>
      if isDigit digit then
        let more := moreDigits isDigit rest
        some (digit :: more.1, more.2)
      else none
  | [] => none

def baseValue (base : Nat) (digits : Text) : Nat :=
  digits.foldl (fun value digit =>
    let digit :=
      if digit.isDigit then digit.toNat - '0'.toNat
      else digit.toLower.toNat - 'a'.toNat + 10
    value * base + digit) 0

def isHex (character : Char) : Bool :=
  character.isDigit || ('a' ≤ character.toLower && character.toLower ≤ 'f')

def isOctal (character : Char) : Bool := '0' ≤ character && character ≤ '7'

def isBinary (character : Char) : Bool := character = '0' || character = '1'

/-- An integer that is not decimal; it has no sign. -/
def based? : Text → Option (Value × Text)
  | '0' :: 'x' :: rest => (digits? isHex rest).map fun found =>
      (.integer (baseValue 16 found.1), found.2)
  | '0' :: 'o' :: rest => (digits? isOctal rest).map fun found =>
      (.integer (baseValue 8 found.1), found.2)
  | '0' :: 'b' :: rest => (digits? isBinary rest).map fun found =>
      (.integer (baseValue 2 found.1), found.2)
  | _ => none

/-- The digits before the point; a zero stands alone. -/
def whole? : Text → Option (Text × Text)
  | '0' :: rest => some (['0'], rest)
  | text => digits? Char.isDigit text

def fraction : Text → Text × Text
  | '.' :: rest =>
      match digits? Char.isDigit rest with
      | some (digits, behind) => ('.' :: digits, behind)
      | none => ([], '.' :: rest)
  | text => ([], text)

def exponent : Text → Text × Text
  | mark :: rest =>
      if mark = 'e' || mark = 'E' then
        let (sign, digits) : Text × Text :=
          match rest with
          | '+' :: behind => (['+'], behind)
          | '-' :: behind => (['-'], behind)
          | behind => ([], behind)
        match digits? Char.isDigit digits with
        | some (found, behind) => (mark :: sign ++ found, behind)
        | none => ([], mark :: rest)
      else ([], mark :: rest)
  | [] => ([], [])

/-- Decimal integers with more digits are not converted. -/
def greatestWidth : Nat := 4300

def integer (negative : Bool) (digits : Text) : Except Refusal Value :=
  let size := Numeral.natural digits
  if greatestWidth < digits.length then .error (.tooManyDigits digits.length)
  else .ok (.integer (if negative then -(size : Int) else size))

/-- A decimal integer, or a float if it has a fraction or an exponent. -/
def decimal? (text : Text) : Option (Except Refusal Value × Text) :=
  let (sign, unsigned) : Text × Text :=
    match text with
    | '+' :: rest => (['+'], rest)
    | '-' :: rest => (['-'], rest)
    | rest => ([], rest)
  (whole? unsigned).bind fun (whole, rest) =>
    let (fraction, rest) := fraction rest
    let (exponent, rest) := exponent rest
    if fraction = [] && exponent = [] then some (integer (sign = ['-']) whole, rest)
    else
      (Numeral.read (sign ++ whole ++ fraction ++ exponent)).map fun number =>
        (.ok (.float number), rest)

def specialWords : List (String × Number) :=
  [("inf", .infinite false), ("nan", .nan), ("-inf", .infinite true),
    ("+inf", .infinite false), ("-nan", .nan), ("+nan", .nan)]

def special? (text : Text) : Option (Value × Text) :=
  specialWords.findSome? fun (word, number) =>
    (text.after? word.toList).map fun rest => (.float number, rest)

def number (text : Text) : Except Refusal (Value × Text) :=
  match based? text, decimal? text with
  | some found, _ => .ok found
  | none, some (value, rest) => value.map fun value => (value, rest)
  | none, none => orMalformed (special? text)

/-! ## Dates and times -/

def fixed? (count : Nat) (text : Text) : Option (Nat × Text) :=
  let digits := text.take count
  if digits.length = count && digits.all Char.isDigit then
    some (Numeral.natural digits, text.drop count)
  else none

def mark? (mark : Char) : Text → Option Text
  | character :: rest => if character = mark then some rest else none
  | [] => none

def upTo? (limit : Nat) (text : Text) : Option (Nat × Text) :=
  (fixed? 2 text).filter fun found => found.1 ≤ limit

def clock? (text : Text) : Option Text := do
  let (_, rest) ← upTo? 23 text
  let rest ← mark? ':' rest
  let (_, rest) ← upTo? 59 rest
  let rest ← mark? ':' rest
  let (_, rest) ← upTo? 59 rest
  match rest with
  | '.' :: digit :: behind =>
      if digit.isDigit then pure (behind.dropWhile Char.isDigit)
      else pure rest
  | _ => pure rest

def offset : Text → Text
  | 'Z' :: rest => rest
  | 'z' :: rest => rest
  | sign :: rest =>
      let found := do
        let (_, rest) ← upTo? 23 rest
        let rest ← mark? ':' rest
        upTo? 59 rest
      match found with
      | some (_, behind) => if sign = '+' || sign = '-' then behind else sign :: rest
      | none => sign :: rest
  | [] => []

def isLeapYear (year : Nat) : Bool :=
  year % 4 = 0 && (year % 100 ≠ 0 || year % 400 = 0)

def monthLength (year month : Nat) : Nat :=
  if month = 2 then (if isLeapYear year then 29 else 28)
  else if [4, 6, 9, 11].contains month then 30
  else 31

/-- A year, a month and a day, which need not be in the calendar. -/
def day? (text : Text) : Option ((Nat × Nat × Nat) × Text) := do
  let (year, rest) ← fixed? 4 text
  let rest ← mark? '-' rest
  let (month, rest) ← (upTo? 12 rest).filter fun found => 1 ≤ found.1
  let rest ← mark? '-' rest
  let (day, rest) ← (upTo? 31 rest).filter fun found => 1 ≤ found.1
  pure ((year, month, day), rest)

/-- A date, a time, or both; `some none` tells of a date outside the calendar. -/
def moment? (text : Text) : Option (Option (Value × Text)) :=
  match day? text with
  | none => (clock? text).map fun rest => some (.time, rest)
  | some ((year, month, day), rest) =>
      if year = 0 || monthLength year month < day then some none
      else
        let clock :=
          match rest with
          | mark :: behind =>
              if mark = 'T' || mark = 't' || mark = ' ' then clock? behind else none
          | [] => none
        match clock with
        | some behind => some (some (.dateTime, offset behind))
        | none => some (some (.date, rest))

end CommandFile.Toml
