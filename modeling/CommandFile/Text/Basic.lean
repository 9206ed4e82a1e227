/-!
# Texts

A text is a list of scalar values, that is of code points without the surrogates, for which a
document has stand-ins of its own.  Documents, paths and file contents are texts: positions and
lengths count scalar values, and the functions on texts recurse on the list.  Fixed wording and log
records stay strings, and `String.ofList` leads from a text into a message.
-/

namespace CommandFile

abbrev Text := List Char

namespace Text

abbrev ofString (word : String) : Text := word.toList

/-- What follows `word` in a text that starts with it. -/
def after? : (text word : Text) → Option Text
  | text, [] => some text
  | [], _ :: _ => none
  | character :: rest, first :: others =>
      if character = first then after? rest others else none

def holds (text word : Text) : Bool :=
  match text with
  | [] => word.isEmpty
  | _ :: rest => word.isPrefixOf text || holds rest word

/-- What precedes `ending` in a text that ends with it. -/
def before? (text ending : Text) : Option Text :=
  if ending.isSuffixOf text then
    some (text.take (text.length - ending.length))
  else
    none

/-- The pieces between the occurrences of a separator; one piece more than there
are separators. -/
def pieces (separator : Char) : Text → List Text
  | [] => [[]]
  | character :: rest =>
      if character = separator then
        [] :: pieces separator rest
      else
        match pieces separator rest with
        | [] => [[character]]
        | piece :: others => (character :: piece) :: others

def join (separator : Text) : List Text → Text
  | [] => []
  | [text] => text
  | text :: others => text ++ separator ++ join separator others

def le : Text → Text → Bool
  | [], _ => true
  | _ :: _, [] => false
  | left :: lefts, right :: rights =>
      left < right || (left == right && le lefts rights)

@[simp] theorem pieces_ne_nil (separator : Char) (text : Text) :
    pieces separator text ≠ [] := by
  cases text with
  | nil => simp [pieces]
  | cons character rest =>
      simp only [pieces]
      split
      · simp
      · split <;> simp

theorem join_pieces (separator : Char) (text : Text) :
    join [separator] (pieces separator text) = text := by
  induction text with
  | nil => rfl
  | cons character rest ih =>
      by_cases same : character = separator
      · subst same
        rw [pieces, if_pos rfl]
        cases parts : pieces character rest with
        | nil => exact absurd parts (pieces_ne_nil character rest)
        | cons piece others =>
            rw [parts] at ih
            simp [join, ih]
      · rw [pieces, if_neg same]
        cases parts : pieces separator rest with
        | nil => exact absurd parts (pieces_ne_nil separator rest)
        | cons piece others =>
            rw [parts] at ih
            cases others <;> simp_all [join]

@[simp] theorem after?_append (word rest : Text) :
    after? (word ++ rest) word = some rest := by
  induction word with
  | nil => simp [after?]
  | cons character word ih => simp [after?, ih]

theorem after?_eq_some_iff {text word rest : Text} :
    text.after? word = some rest ↔ text = word ++ rest := by
  constructor
  · intro found
    induction word generalizing text with
    | nil => simpa [after?] using found
    | cons first others ih =>
        cases text with
        | nil => simp [after?] at found
        | cons character tail =>
            by_cases same : character = first
            · rw [after?, if_pos same] at found
              rw [same, List.cons_append, ih found]
            · simp [after?, same] at found
  · rintro rfl
    exact after?_append word rest

end Text

end CommandFile
