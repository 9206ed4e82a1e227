import CommandFile.Proofs.Numerals
import CommandFile.Toml.Reader
import CommandFile.Toml.Writer

/-!
# Written values

A value is read back from the line that it is written on, whatever characters a string holds:
none of its escapes is taken for another, and none of its characters for a mark.
-/

namespace CommandFile.Toml

open Numeral (AllDigits Parts signed)

/-! ## Strings -/

section Strings

variable (rest : Text)

theorem basic_escaped {letter character : Char} (escapes : shortEscape? letter = some character) :
    basic ('\\' :: letter :: rest) = push character (basic rest) := by
  have lower : letter ≠ 'u' := by rintro rfl; nomatch escapes
  have upper : letter ≠ 'U' := by rintro rfl; nomatch escapes
  simp [basic, lower, upper, escapes]

theorem basic_plain {character : Char} (unquoted : character ≠ '"') (plain : character ≠ '\\')
    (shown : isControl character = false) :
    basic (character :: rest) = push character (basic rest) := by
  rw [basic.eq_def]
  split <;> simp_all

theorem exists_digits_of_isControl {character : Char} (control : isControl character = true) :
    ∃ a b c d, Text.hexDigits 4 character.toNat = [a, b, c, d] ∧
      codedChar? [a, b, c, d] = some character := by
  have small : ∀ code < 0x80, (Text.hexDigits 4 code).length = 4 ∧
      codedChar? (Text.hexDigits 4 code) = some (Char.ofNat code) := by decide
  have less : character.toNat < 0x80 := by
    simp only [isControl, Bool.or_eq_true, Bool.and_eq_true, decide_eq_true_eq] at control
    omega
  obtain ⟨four, coded⟩ := small _ less
  rw [Char.ofNat_toNat] at coded
  match Text.hexDigits 4 character.toNat, four, coded with
  | [a, b, c, d], _, coded => exact ⟨a, b, c, d, rfl, coded⟩

theorem basic_escapeChar (character : Char) :
    basic (escapeChar character ++ rest) = push character (basic rest) := by
  unfold escapeChar
  split
  · next letter escaped =>
      have escapes : shortEscape? letter = some character := by
        revert escaped
        unfold escapeLetter?
        split <;> rintro ⟨⟩ <;> rfl
      exact basic_escaped rest escapes
  · next unescaped =>
      split
      · next control =>
          obtain ⟨a, b, c, d, digits, coded⟩ := exists_digits_of_isControl control
          rw [digits]
          simp only [List.cons_append, List.nil_append, basic, coded, Option.bind_some]
      · next shown =>
          refine basic_plain rest ?_ ?_ (Bool.eq_false_iff.mpr shown)
          · rintro rfl
            nomatch unescaped
          · rintro rfl
            nomatch unescaped

theorem basic_flatMap_escapeChar (text : Text) :
    basic (text.flatMap escapeChar ++ '"' :: rest) = some (text, rest) := by
  induction text with
  | nil => rfl
  | cons character text ih =>
      rw [List.flatMap_cons, List.append_assoc, basic_escapeChar, ih]
      rfl

end Strings

/-! ## Numbers -/

section Numbers

/-- Behind the digits of a number: neither a digit nor an underscore. -/
def Ends (rest : Text) : Prop :=
  ∀ character ∈ rest.head?, character.isDigit = false ∧ character ≠ '_'

theorem ends_cons {character : Char} (rest : Text) (ends : character.isDigit = false)
    (single : character ≠ '_') : Ends (character :: rest) := by
  simp [Ends, ends, single]

theorem moreDigits_append {digits rest : Text} (all : AllDigits digits) (ends : Ends rest) :
    moreDigits Char.isDigit (digits ++ rest) = (digits, rest) := by
  induction digits with
  | nil =>
      cases rest with
      | nil => rfl
      | cons character rest =>
          obtain ⟨stops, single⟩ := ends character rfl
          simp [moreDigits, single, stops]
  | cons digit digits ih =>
      obtain ⟨isDigit, others⟩ := List.forall_mem_cons.mp all
      have single : digit ≠ '_' := Numeral.ne_of_isDigit isDigit rfl
      simp [moreDigits, single, isDigit, ih others]

theorem digits?_append {digits rest : Text} (some : digits ≠ []) (all : AllDigits digits)
    (ends : Ends rest) : digits? Char.isDigit (digits ++ rest) = .some (digits, rest) := by
  obtain ⟨digit, digits, rfl⟩ := List.exists_cons_of_ne_nil some
  obtain ⟨isDigit, others⟩ := List.forall_mem_cons.mp all
  simp [digits?, isDigit, moreDigits_append others ends]

def signOf : Text → Text × Text
  | '+' :: rest => (['+'], rest)
  | '-' :: rest => (['-'], rest)
  | text => ([], text)

variable {parts : Parts} (proper : parts.Proper) (rest : Text)

theorem ends_powered (parts : Parts) : Ends (parts.powered ++ '\n' :: rest) := by
  unfold Parts.powered
  cases parts.power with
  | none => exact ends_cons _ rfl (by decide)
  | some exponent => exact ends_cons _ rfl (by decide)

theorem ends_pointed (parts : Parts) : Ends (parts.pointed ++ (parts.powered ++ '\n' :: rest)) := by
  unfold Parts.pointed
  split
  · exact ends_powered rest parts
  · exact ends_cons _ rfl (by decide)

theorem exponent_powered (parts : Parts) :
    exponent (parts.powered ++ '\n' :: rest) = (parts.powered, '\n' :: rest) := by
  unfold Parts.powered
  cases parts.power with
  | none => rfl
  | some power =>
      obtain ⟨digits, some, all, -, written⟩ := Numeral.exists_exponentText power
      have found := digits?_append some all (ends_cons rest rfl (by decide) : Ends ('\n' :: rest))
      rw [Option.elim_some, written]
      split <;> simp [exponent, found]

include proper

theorem fraction_pointed :
    fraction (parts.pointed ++ (parts.powered ++ '\n' :: rest)) =
      (parts.pointed, parts.powered ++ '\n' :: rest) := by
  unfold Parts.pointed
  split
  · unfold Parts.powered
    cases parts.power <;> rfl
  · next some =>
      simp [fraction, digits?_append some proper.fraction (ends_powered rest parts)]

theorem exists_nonzero (head : parts.whole.head? ≠ some '0') :
    ∃ digit digits, parts.whole = digit :: digits ∧ digit ≠ '0' := by
  obtain ⟨digit, digits, whole⟩ := List.exists_cons_of_ne_nil proper.present
  refine ⟨digit, digits, whole, ?_⟩
  rintro rfl
  exact head (by rw [whole]; rfl)

theorem whole?_text :
    whole? (parts.text ++ '\n' :: rest) =
      some (parts.whole, parts.pointed ++ (parts.powered ++ '\n' :: rest)) := by
  have found := digits?_append proper.present proper.whole (ends_pointed rest parts)
  simp only [Parts.text, List.append_assoc]
  rcases proper.leading with zero | head
  · rw [zero]
    rfl
  · obtain ⟨digit, digits, whole, nonzero⟩ := exists_nonzero proper head
    rw [← found, whole, List.cons_append]
    simp [whole?, nonzero]

theorem pointed_or_powered :
    (parts.pointed = [] && parts.powered = [] : Bool) = false := by
  rcases proper.float with some | some
  · simp [Parts.pointed, some]
  · obtain ⟨power, same⟩ := Option.ne_none_iff_exists'.mp some
    simp [Parts.powered, same]

omit proper in
theorem decimal?_eq (text : Text) :
    decimal? text = (whole? (signOf text).2).bind fun (whole, rest) =>
      if (fraction rest).1 = [] && (exponent (fraction rest).2).1 = [] then
        some (integer ((signOf text).1 = ['-']) whole, (exponent (fraction rest).2).2)
      else
        (Numeral.read
            ((signOf text).1 ++ whole ++ (fraction rest).1 ++ (exponent (fraction rest).2).1)).map
          fun number => (.ok (.float number), (exponent (fraction rest).2).2) := rfl

theorem signOf_signed (negative : Bool) :
    signOf (signed negative parts.text ++ '\n' :: rest) =
      (signed negative [], parts.text ++ '\n' :: rest) := by
  cases negative with
  | true => rfl
  | false =>
      obtain ⟨digit, others, written, isDigit⟩ := Numeral.exists_digit proper
      have plus : digit ≠ '+' := Numeral.ne_of_isDigit isDigit rfl
      have minus : digit ≠ '-' := Numeral.ne_of_isDigit isDigit rfl
      simp [signed, signOf, written, plus, minus]

theorem decimal?_signed (negative : Bool) :
    decimal? (signed negative parts.text ++ '\n' :: rest) =
      some (.ok (.float (parts.decimal.toNumber negative)), '\n' :: rest) := by
  have numeral :
      Numeral.read (signed negative [] ++ parts.whole ++ parts.pointed ++ parts.powered) =
        some (parts.decimal.toNumber negative) := by
    rw [← Numeral.read_signed proper negative, Parts.text]
    cases negative <;> simp [signed]
  rw [decimal?_eq, signOf_signed proper, whole?_text proper, Option.bind_some]
  simp only [fraction_pointed proper, exponent_powered, pointed_or_powered proper, numeral,
    Option.map_some, Bool.false_eq_true, if_false]

/-! ### No other number, and no time -/

omit proper in
theorem exists_mark (parts : Parts) :
    ∃ mark behind, (mark = '.' ∨ mark = 'e' ∨ mark = '\n') ∧
      parts.pointed ++ (parts.powered ++ '\n' :: rest) = mark :: behind := by
  unfold Parts.pointed
  split
  · unfold Parts.powered
    cases parts.power with
    | none => exact ⟨_, _, .inr (.inr rfl), rfl⟩
    | some exponent => exact ⟨_, _, .inr (.inl rfl), rfl⟩
  · exact ⟨_, _, .inl rfl, rfl⟩

theorem based?_signed (negative : Bool) :
    based? (signed negative parts.text ++ '\n' :: rest) = none := by
  cases negative with
  | true => rfl
  | false =>
      simp only [signed, Bool.false_eq_true, if_false, Parts.text, List.append_assoc]
      rcases proper.leading with zero | head
      · obtain ⟨mark, behind, which, written⟩ := exists_mark rest parts
        rw [zero, written]
        rcases which with rfl | rfl | rfl <;> rfl
      · obtain ⟨digit, digits, whole, nonzero⟩ := exists_nonzero proper head
        simp [whole, based?, nonzero]

omit proper

variable {digits behind : Text} {mark : Char}

theorem le_of_fixed? (stops : mark.isDigit = false) {count : Nat} {found : Nat × Text}
    (fixed : fixed? count (digits ++ mark :: behind) = some found) :
    count ≤ digits.length ∧ found.2 = digits.drop count ++ mark :: behind := by
  unfold fixed? at fixed
  dsimp only at fixed
  split at fixed
  · next front =>
      simp only [Bool.and_eq_true, decide_eq_true_eq, List.all_eq_true] at front
      have within : count ≤ digits.length := by
        by_contra more
        have inside : mark ∈ (digits ++ mark :: behind).take count := by
          obtain ⟨extra, rfl⟩ := Nat.exists_eq_add_of_lt (Nat.not_le.mp more)
          rw [Nat.add_assoc, List.take_length_add_append, List.take_succ_cons]
          exact List.mem_append_right _ List.mem_cons_self
        rw [front.2 mark inside] at stops
        nomatch stops
      obtain rfl := Option.some.inj fixed
      exact ⟨within, List.drop_append_of_le_length within⟩
  · nomatch fixed

theorem mark?_digits {separator : Char} (all : AllDigits digits)
    (other : separator.isDigit = false) (differs : separator ≠ mark) :
    mark? separator (digits ++ mark :: behind) = none := by
  cases digits with
  | nil => simp [mark?, differs.symm]
  | cons digit digits =>
      have away := Numeral.ne_of_isDigit (all digit List.mem_cons_self) other
      simp [mark?, away]

theorem mark?_of_fixed? (all : AllDigits digits) (stops : mark.isDigit = false) {count : Nat}
    {found : Nat × Text} (fixed : fixed? count (digits ++ mark :: behind) = some found)
    {separator : Char} (other : separator.isDigit = false) (differs : separator ≠ mark) :
    mark? separator found.2 = none := by
  obtain ⟨-, left⟩ := le_of_fixed? stops fixed
  rw [left]
  exact mark?_digits (fun _ inside => all _ (List.mem_of_mem_drop inside)) other differs

theorem moment?_digits (all : AllDigits digits) (stops : mark.isDigit = false)
    (dash : digits = [] ∨ mark ≠ '-') (colon : mark ≠ ':') :
    moment? (digits ++ mark :: behind) = none := by
  have noDay : day? (digits ++ mark :: behind) = none := by
    unfold day?
    cases fixed : fixed? 4 (digits ++ mark :: behind) with
    | none => rfl
    | some found =>
        have dashless : '-' ≠ mark := by
          rcases dash with rfl | dash
          · simpa using (le_of_fixed? stops fixed).1
          · exact dash.symm
        simp [mark?_of_fixed? all stops fixed rfl dashless]
  have noClock : clock? (digits ++ mark :: behind) = none := by
    unfold clock?
    cases hour : upTo? 23 (digits ++ mark :: behind) with
    | none => rfl
    | some found =>
        obtain ⟨fixed, -⟩ := Option.filter_eq_some_iff.mp hour
        simp [mark?_of_fixed? all stops fixed rfl colon.symm]
  rw [moment?, noDay, noClock]
  rfl

theorem moment?_signed (proper : parts.Proper) (negative : Bool) :
    moment? (signed negative parts.text ++ '\n' :: rest) = none := by
  cases negative with
  | true =>
      change moment? ([] ++ '-' :: (parts.text ++ '\n' :: rest)) = none
      exact moment?_digits (List.forall_mem_nil _) (by decide) (.inl rfl) (by decide)
  | false =>
      obtain ⟨mark, behind, which, written⟩ := exists_mark rest parts
      simp only [signed, Bool.false_eq_true, if_false, Parts.text, List.append_assoc, written]
      rcases which with rfl | rfl | rfl <;>
        exact moment?_digits proper.whole (by decide) (.inr (by decide)) (by decide)

theorem number_signed (proper : parts.Proper) (negative : Bool) :
    number (signed negative parts.text ++ '\n' :: rest) =
      .ok (.float (parts.decimal.toNumber negative), '\n' :: rest) := by
  rw [number, based?_signed proper, decimal?_signed proper]
  rfl

end Numbers

/-! ## Values -/

/-- What is written on the rest of a line is read as a value, and nothing else of the text is. -/
structure Reads (written : Text) (found : Value) : Prop where
  spaceless : ∀ rest, skipSpaces (written ++ '\n' :: rest) = written ++ '\n' :: rest
  value : ∀ limit rest, value (limit + 1) (written ++ '\n' :: rest) = .ok (found, '\n' :: rest)

theorem skipSpaces_cons {character : Char} (solid : isSpace character = false) (rest : Text) :
    skipSpaces (character :: rest) = character :: rest := by
  rw [skipSpaces, List.dropWhile_cons_of_neg (by simp [solid])]

theorem reads_flag (flag : Bool) : Reads (writeFlag flag) (.boolean flag) where
  spaceless := by
    intro rest
    cases flag <;> rfl
  value := by
    intro limit rest
    cases flag <;> rfl

theorem exists_escapeChar (character : Char) :
    ∃ first others, escapeChar character = first :: others ∧ first ≠ '"' := by
  unfold escapeChar
  split
  · exact ⟨_, _, rfl, by decide⟩
  · next unescaped =>
      split
      · exact ⟨_, _, rfl, by decide⟩
      · refine ⟨_, _, rfl, ?_⟩
        rintro rfl
        nomatch unescaped

theorem string?_writeString (text rest : Text) :
    string? (writeString text ++ '\n' :: rest) = some (text, '\n' :: rest) := by
  have closed : writeString text ++ '\n' :: rest =
      '"' :: (text.flatMap escapeChar ++ '"' :: '\n' :: rest) := by
    simp [writeString]
  rw [closed, ← basic_flatMap_escapeChar]
  cases text with
  | nil => rfl
  | cons character text =>
      obtain ⟨first, others, escaped, single⟩ := exists_escapeChar character
      simp [string?, escaped, single]

theorem reads_string (text : Text) : Reads (writeString text) (.string text) where
  spaceless := fun _ => rfl
  value := by
    intro limit rest
    have found := string?_writeString text rest
    simp only [writeString, List.cons_append] at found ⊢
    simp only [Toml.value, found]
    rfl

theorem reads_number {number : Number} (finite : number.IsFinite) :
    Reads number.text (.float number) := by
  match number, finite with
  | .finite negative mantissa exponent, fits =>
      obtain ⟨parts, proper, written, same⟩ := Numeral.exists_parts fits negative
      obtain ⟨digit, others, whole, isDigit⟩ := Numeral.exists_digit proper
      obtain ⟨first, behind, begins, which⟩ :
          ∃ first behind, signed negative parts.text = first :: behind ∧
            (first = '-' ∨ first.isDigit = true) := by
        cases negative with
        | true => exact ⟨_, _, rfl, .inl rfl⟩
        | false => exact ⟨digit, others, whole, .inr isDigit⟩
      have other (mark : Char) (unsigned : mark ≠ '-') (digitless : mark.isDigit = false) :
          first ≠ mark := by
        rintro rfl
        exact which.elim unsigned (by simp [digitless])
      rw [written]
      refine ⟨fun rest => ?_, fun limit rest => ?_⟩
      · rw [begins, List.cons_append]
        refine skipSpaces_cons ?_ _
        simp [isSpace, other ' ' (by decide) (by decide), other '\t' (by decide) (by decide)]
      · have read := number_signed rest proper negative
        have late := moment?_signed rest proper negative
        rw [same] at read
        rw [begins, List.cons_append] at read late ⊢
        have yes : Text.after? (first :: (behind ++ '\n' :: rest)) (Text.ofString "true") = none :=
          if_neg (other 't' (by decide) (by decide))
        have no : Text.after? (first :: (behind ++ '\n' :: rest)) (Text.ofString "false") = none :=
          if_neg (other 'f' (by decide) (by decide))
        simp [Toml.value, yes, no, late, read, other '[' (by decide) (by decide),
          other '\x7b' (by decide) (by decide), other '"' (by decide) (by decide),
          other '\x27' (by decide) (by decide)]

/-! ## Lines -/

section Lines

variable {name : Text} (bare : name.all isBareChar = true) (some : name ≠ [])
include bare some

theorem exists_bare :
    ∃ first others, name = first :: others ∧ isBareChar first = true ∧
      ∀ mark, isBareChar mark = false → first ≠ mark := by
  obtain ⟨first, others, rfl⟩ := List.exists_cons_of_ne_nil some
  have isBare := List.all_eq_true.mp bare first List.mem_cons_self
  refine ⟨first, others, rfl, isBare, fun mark other => ?_⟩
  rintro rfl
  rw [isBare] at other
  nomatch other

theorem key?_bare {mark : Char} (stops : isBareChar mark = false) {tail behind : Text}
    (left : skipSpaces (mark :: tail) = behind) (dotless : behind.head? ≠ .some '.') (limit : Nat) :
    key? (limit + 1) (name ++ mark :: tail) = .some ([name], behind) := by
  obtain ⟨first, others, written, isBare, other⟩ := exists_bare bare some
  have taken : (name ++ mark :: tail).takeWhile isBareChar = name := by
    rw [List.takeWhile_append_of_pos (List.all_eq_true.mp bare),
      List.takeWhile_cons_of_neg (by simp [stops]), List.append_nil]
  have part : keyPart? (name ++ mark :: tail) = .some (name, mark :: tail) := by
    have double := other '"' (by decide)
    have single := other '\x27' (by decide)
    rw [written] at taken ⊢
    simp only [List.cons_append] at taken ⊢
    simp [keyPart?, double, single, taken]
  rw [key?, part]
  simp only [left]
  split
  · exact absurd rfl dotless
  · rfl

theorem statement_pair {document after : Document} {written : Text} {found : Value}
    (reads : Reads written found) (added : document.addPair [name] found = .some after)
    (rest : Text) :
    document.statement (name ++ ' ' :: '=' :: ' ' :: (written ++ '\n' :: rest)) =
      .ok (after, '\n' :: rest) := by
  obtain ⟨first, others, begins, -, other⟩ := exists_bare bare some
  have outside : first ≠ '[' := other '[' (by decide)
  have left : skipSpaces (' ' :: '=' :: ' ' :: (written ++ '\n' :: rest)) =
      '=' :: ' ' :: (written ++ '\n' :: rest) := rfl
  have key := key?_bare bare some (by decide) left (by simp)
  have space : skipSpaces (' ' :: (written ++ '\n' :: rest)) = written ++ '\n' :: rest :=
    reads.spaceless rest
  rw [begins] at key added ⊢
  simp only [List.cons_append] at key ⊢
  simp [Document.statement, outside, key, space, reads.value, added, orMalformed, Except.bind]

theorem lines_header {document after : Document} (opened : document.openTable [name] = .some after)
    (limit : Nat) (rest : Text) :
    document.lines (limit + 1) ('[' :: (name ++ ']' :: '\n' :: rest)) = after.lines limit rest := by
  obtain ⟨first, others, begins, -, other⟩ := exists_bare bare some
  have solid : isSpace first = false := by
    simp [isSpace, other ' ' (by decide), other '\t' (by decide)]
  have single : first ≠ '[' := other '[' (by decide)
  have left : skipSpaces (']' :: '\n' :: rest) = ']' :: '\n' :: rest := rfl
  have key := key?_bare bare some (by decide) left (by simp)
  rw [begins] at key opened ⊢
  simp only [List.cons_append] at key ⊢
  simp [Document.lines, Document.statement, skipSpaces_cons (show isSpace '[' = false from rfl),
    skipSpaces_cons solid, single, key, opened, orMalformed, Except.bind, skipComment?,
    skipSpaces_cons (show isSpace '\n' = false from rfl)]

end Lines

theorem lines_blank (document : Document) (limit : Nat) (rest : Text) :
    document.lines (limit + 1) ('\n' :: rest) = document.lines limit rest := rfl

theorem lines_pair {key : String} (bare : key.toList.all isBareChar = true)
    (some : key.toList ≠ []) {document after : Document} {written : Text} {found : Value}
    (reads : Reads written found) (added : document.addPair [key.toList] found = .some after)
    (limit : Nat) (rest : Text) :
    document.lines (limit + 1) (writePair key written ++ rest) = after.lines limit rest := by
  obtain ⟨first, others, begins, -, other⟩ := exists_bare bare some
  have solid : isSpace first = false := by
    simp [isSpace, other ' ' (by decide), other '\t' (by decide)]
  have line : first ≠ '\n' := other '\n' (by decide)
  have comment : first ≠ '#' := other '#' (by decide)
  have read := statement_pair bare some reads added rest
  have whole : writePair key written ++ rest =
      key.toList ++ ' ' :: '=' :: ' ' :: (written ++ '\n' :: rest) := by
    simp only [writePair, List.append_assoc, List.singleton_append]
    rfl
  rw [whole]
  rw [begins, List.cons_append] at read ⊢
  simp [Document.lines, skipSpaces_cons solid, comment, read, Except.bind,
    skipSpaces_cons (show isSpace '\n' = false from rfl), skipComment?, orMalformed]

end CommandFile.Toml
