import CommandFile.Number.Basic
import CommandFile.Text.Basic

/-!
# Values from outside

What a settings file or a caller hands in before anybody has looked at it.  Of dates and
times only the form is kept, since nothing here has a use for one.
-/

namespace CommandFile

inductive Value
  | null
  | string (text : Text)
  | integer (value : Int)
  | float (number : Number)
  | boolean (value : Bool)
  | date
  | time
  | dateTime
  | array (items : List Value)
  | table (entries : List (Text × Value))
deriving Inhabited

abbrev Table := List (Text × Value)

namespace Value

def typeName : Value → String
  | .null => "NoneType"
  | .string _ => "str"
  | .integer _ => "int"
  | .float _ => "float"
  | .boolean _ => "bool"
  | .date => "datetime.date"
  | .time => "datetime.time"
  | .dateTime => "datetime.datetime"
  | .array _ => "list"
  | .table _ => "dict"

end Value

namespace Table

def get? (table : Table) (key : Text) : Option Value :=
  (table.find? (·.1 = key)).map (·.2)

def put : Table → Text → Value → Table
  | [], key, value => [(key, value)]
  | entry :: others, key, value =>
      if entry.1 = key then (key, value) :: others else entry :: put others key value

@[simp] theorem get?_nil (key : Text) : get? [] key = none := rfl

@[simp] theorem get?_cons (entry : Text × Value) (others : Table) (key : Text) :
    get? (entry :: others) key = if entry.1 = key then some entry.2 else get? others key := by
  by_cases same : entry.1 = key <;> simp [get?, same]

theorem get?_put (table : Table) (key other : Text) (value : Value) :
    (put table key value).get? other = if key = other then some value else table.get? other := by
  induction table with
  | nil => simp [put, get?_cons]
  | cons entry others ih =>
      by_cases same : entry.1 = key
      · subst same
        by_cases here : entry.1 = other <;> simp [put, get?_cons, here]
      · by_cases here : key = other
        · subst here
          simp [put, get?_cons, same, ih]
        · simp [put, get?_cons, same, ih, here]

end Table

end CommandFile
