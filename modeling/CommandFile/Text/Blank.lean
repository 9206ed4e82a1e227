import CommandFile.Text.Basic

/-!
# White space

The white space of this language is Unicode's: the characters of bidirectional
type B, S or WS together with the space separators.  It is wider than
`Char.isWhitespace`, and it does not hold the zero-width space or the byte order
mark.
-/

namespace CommandFile.Text

def blankRanges : List (Nat × Nat) :=
  [(0x09, 0x0D), (0x1C, 0x20), (0x85, 0x85), (0xA0, 0xA0), (0x1680, 0x1680),
    (0x2000, 0x200A), (0x2028, 0x2029), (0x202F, 0x202F), (0x205F, 0x205F),
    (0x3000, 0x3000)]

def isBlankChar (character : Char) : Bool :=
  blankRanges.any fun range =>
    range.1 ≤ character.toNat && character.toNat ≤ range.2

def trimLeft (text : Text) : Text := text.dropWhile isBlankChar

def trimRight (text : Text) : Text := (trimLeft text.reverse).reverse

def trim (text : Text) : Text := trimRight (trimLeft text)

def isBlank (text : Text) : Bool := text.all isBlankChar

@[simp] theorem trimLeft_nil : trimLeft [] = [] := rfl

theorem trimLeft_cons_of_blank {character : Char} (blank : isBlankChar character)
    (rest : Text) : trimLeft (character :: rest) = trimLeft rest := by
  rw [trimLeft, List.dropWhile_cons_of_pos blank, trimLeft]

theorem trimLeft_cons_of_not_blank {character : Char} (solid : ¬ isBlankChar character)
    (rest : Text) : trimLeft (character :: rest) = character :: rest := by
  rw [trimLeft, List.dropWhile_cons_of_neg solid]

@[simp] theorem isBlank_cons (character : Char) (rest : Text) :
    isBlank (character :: rest) = (isBlankChar character && isBlank rest) := rfl

theorem trimLeft_eq_nil_iff (text : Text) : trimLeft text = [] ↔ isBlank text := by
  induction text with
  | nil => exact ⟨fun _ => rfl, fun _ => rfl⟩
  | cons character rest ih =>
      by_cases blank : isBlankChar character
      · rw [trimLeft_cons_of_blank blank, ih, isBlank_cons, blank, Bool.true_and]
      · rw [trimLeft_cons_of_not_blank blank, isBlank_cons]
        simp [blank]

theorem isBlank_trimLeft (text : Text) : isBlank (trimLeft text) = isBlank text := by
  induction text with
  | nil => rfl
  | cons character rest ih =>
      by_cases blank : isBlankChar character
      · rw [trimLeft_cons_of_blank blank, ih, isBlank_cons, blank, Bool.true_and]
      · rw [trimLeft_cons_of_not_blank blank]

theorem isBlank_reverse (text : Text) : isBlank text.reverse = isBlank text := by
  rw [isBlank, isBlank, List.all_reverse]

theorem trim_eq_nil_iff (text : Text) : trim text = [] ↔ isBlank text := by
  rw [trim, trimRight, List.reverse_eq_nil_iff, trimLeft_eq_nil_iff, isBlank_reverse,
    isBlank_trimLeft]

end CommandFile.Text
