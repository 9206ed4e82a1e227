import CommandFile.Number.Decimal
import CommandFile.Text.Blank
import CommandFile.Text.DecimalDigit

/-!
# Numerals

A numeral is a sign, digits with an optional point and an optional exponent, or a word
for infinity or for no number.  `read` takes a bare numeral.  `readWritten` takes one as
people write it, and `readLoosely` one that stands in a setting.
-/

namespace CommandFile.Numeral

def natural (digits : Text) : Nat :=
  digits.foldl (fun value digit => value * 10 + (digit.toNat - '0'.toNat)) 0

/-- Splits a sign off; says whether it was a minus. -/
def sign : Text → Bool × Text
  | '-' :: rest => (true, rest)
  | '+' :: rest => (false, rest)
  | text => (false, text)

def exponent? : Text → Option Int
  | [] => some 0
  | mark :: rest =>
      let (negative, digits) := sign rest
      if (mark = 'e' || mark = 'E') && digits ≠ [] && digits.all Char.isDigit then
        some (if negative then -(natural digits : Int) else natural digits)
      else none

def decimal? (text : Text) : Option Number.Decimal :=
  let whole := text.takeWhile Char.isDigit
  let rest := text.drop whole.length
  let fraction :=
    match rest with
    | '.' :: behind => behind.takeWhile Char.isDigit
    | _ => []
  let behind :=
    match rest with
    | '.' :: behind => behind.drop fraction.length
    | _ => rest
  if whole = [] && fraction = [] then none
  else
    (exponent? behind).map fun exponent =>
      ⟨natural (whole ++ fraction), exponent - fraction.length⟩

def read (text : Text) : Option Number :=
  let (negative, body) := sign text
  let word := String.ofList (body.map Char.toLower)
  if word = "inf" || word = "infinity" then some (.infinite negative)
  else if word = "nan" then some .nan
  else (decimal? body).map (Number.Decimal.toNumber negative)

/-- White space that may surround a numeral; it excludes the four separators at 1C to
1F. -/
def isPadding (character : Char) : Bool :=
  Text.isBlankChar character && !(0x1C ≤ character.toNat && character.toNat ≤ 0x1F)

def unpadded (text : Text) : Text :=
  ((text.dropWhile isPadding).reverse.dropWhile isPadding).reverse

/-- Takes out underscores, each of which must stand between two digits. -/
def ungrouped? (before : Bool) : Text → Option Text
  | [] => some []
  | '_' :: rest =>
      match rest with
      | digit :: _ =>
          if before && digit.isDigit then ungrouped? false rest else none
      | [] => none
  | character :: rest => (ungrouped? character.isDigit rest).map (character :: ·)

def readWritten (text : Text) : Option Number :=
  (ungrouped? false (Text.plainDigits (unpadded text))).bind read

def hasDouble : Text → Bool
  | '_' :: '_' :: _ => true
  | _ :: rest => hasDouble rest
  | [] => false

/-- A numeral with white space around it, or one with single underscores inside it. -/
def readLoosely (text : Text) : Option Number :=
  match read (unpadded text) with
  | some number => some number
  | none =>
      if text.head? = some '_' || text.getLast? = some '_' || hasDouble text then none
      else if text.contains '_' then read (text.filter (· ≠ '_'))
      else none

end CommandFile.Numeral
