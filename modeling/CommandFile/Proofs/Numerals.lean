import CommandFile.Proofs.Decimals
import CommandFile.Toml.Scalar
import Mathlib.Tactic.IntervalCases

/-!
# Written numbers

A number is written as digits, a point with digits behind it, and a power of ten.  Such a
numeral is read back to the decimal it was made of, by itself as well as in a settings file.
-/

namespace CommandFile

namespace Numeral

open Number (Decimal)

/-! ## Digits -/

theorem natural_eq (digits : Text) : natural digits = Nat.ofDigitChars 10 digits 0 := by
  simp only [natural, Nat.ofDigitChars_eq_foldl, Nat.mul_comm]

theorem natural_toDigits (number : Nat) : natural (Nat.toDigits 10 number) = number := by
  rw [natural_eq, Nat.ofDigitChars_ten_toDigits]

theorem natural_append (digits others : Text) :
    natural (digits ++ others) = natural digits * 10 ^ others.length + natural others := by
  rw [natural_eq, natural_eq, natural_eq, Nat.ofDigitChars_append,
    Nat.ofDigitChars_eq_ofDigitChars_zero, Nat.mul_comm]

theorem natural_zeros (count : Nat) : natural (List.replicate count '0') = 0 := by
  rw [natural_eq, Nat.ofDigitChars_replicate_zero, Nat.mul_zero]

def AllDigits (text : Text) : Prop := ∀ character ∈ text, character.isDigit = true

theorem allDigits_toDigits (number : Nat) : AllDigits (Nat.toDigits 10 number) :=
  fun _ => Nat.isDigit_of_mem_toDigits (by decide) (by decide)

@[simp] theorem allDigits_append {first second : Text} :
    AllDigits (first ++ second) ↔ AllDigits first ∧ AllDigits second :=
  List.forall_mem_append

theorem allDigits_zeros (count : Nat) : AllDigits (List.replicate count '0') :=
  fun _ inside => by rw [List.eq_of_mem_replicate inside]; rfl

theorem ne_of_isDigit {digit mark : Char} (isDigit : digit.isDigit = true)
    (other : mark.isDigit = false) : digit ≠ mark := by
  rintro rfl
  rw [isDigit] at other
  nomatch other

theorem head_toDigits {number : Nat} (positive : 0 < number) :
    (Nat.toDigits 10 number).head? ≠ some '0' := by
  induction number using Nat.strongRecOn with
  | ind number ih =>
      rw [Nat.toDigits_eq_if (by decide)]
      split
      · next less =>
          interval_cases number <;> decide
      · next more =>
          rw [List.head?_append_of_ne_nil _ Nat.toDigits_ne_nil]
          exact ih (number / 10) (by omega) (by omega)

/-! ## The parts of a numeral -/

/-- The digits before and behind the point, and the power of ten if there is one. -/
structure Parts where
  whole : Text
  fraction : Text
  power : Option Int

namespace Parts

def pointed (parts : Parts) : Text :=
  if parts.fraction = [] then [] else '.' :: parts.fraction

def powered (parts : Parts) : Text :=
  parts.power.elim [] fun exponent => 'e' :: Decimal.exponentText exponent

def text (parts : Parts) : Text := parts.whole ++ (parts.pointed ++ parts.powered)

def decimal (parts : Parts) : Decimal :=
  ⟨natural (parts.whole ++ parts.fraction), parts.power.getD 0 - parts.fraction.length⟩

structure Proper (parts : Parts) : Prop where
  whole : AllDigits parts.whole
  fraction : AllDigits parts.fraction
  present : parts.whole ≠ []
  leading : parts.whole = ['0'] ∨ parts.whole.head? ≠ some '0'
  float : parts.fraction ≠ [] ∨ parts.power ≠ none

end Parts

def layoutParts (decimal : Decimal) : Parts :=
  let digits := Nat.toDigits 10 decimal.digits
  let place := decimal.exponent + digits.length
  if decimal.digits = 0 then ⟨['0'], ['0'], none⟩
  else if place < Decimal.leastPlace || Decimal.greatestPlace < place then
    ⟨digits.take 1, digits.drop 1, some (place - 1)⟩
  else if place ≤ 0 then ⟨['0'], List.replicate place.natAbs '0' ++ digits, none⟩
  else if decimal.exponent ≥ 0 then
    ⟨digits ++ List.replicate decimal.exponent.natAbs '0', ['0'], none⟩
  else ⟨digits.take place.natAbs, digits.drop place.natAbs, none⟩

theorem layout_eq (decimal : Decimal) : decimal.layout = (layoutParts decimal).text := by
  have some : Nat.toDigits 10 decimal.digits ≠ [] := Nat.toDigits_ne_nil
  simp only [Decimal.layout, layoutParts]
  split
  · rfl
  · split
    · simp [Parts.text, Parts.pointed, Parts.powered]
    · split
      · simp [Parts.text, Parts.pointed, Parts.powered, some]
      · split
        · simp [Parts.text, Parts.pointed, Parts.powered]
        · next small =>
            have left : (Nat.toDigits 10 decimal.digits).drop
                (decimal.exponent + (Nat.toDigits 10 decimal.digits).length).natAbs ≠ [] := by
              rw [ne_eq, List.drop_eq_nil_iff]
              omega
            simp [Parts.text, Parts.pointed, Parts.powered, left]

theorem proper_layoutParts (decimal : Decimal) : (layoutParts decimal).Proper := by
  have digits := allDigits_toDigits decimal.digits
  have some : Nat.toDigits 10 decimal.digits ≠ [] := Nat.toDigits_ne_nil
  have zero : AllDigits ['0'] := allDigits_zeros 1
  simp only [layoutParts]
  split
  · exact ⟨zero, zero, by simp, .inl rfl, .inl (by simp)⟩
  · next positive =>
      have head := head_toDigits (Nat.pos_of_ne_zero positive)
      split
      · exact ⟨fun _ inside => digits _ (List.mem_of_mem_take inside),
          fun _ inside => digits _ (List.mem_of_mem_drop inside), by simp [some],
          .inr (by rwa [List.head?_take, if_neg Nat.one_ne_zero]), .inr (by simp)⟩
      · split
        · exact ⟨zero, allDigits_append.mpr ⟨allDigits_zeros _, digits⟩, by simp, .inl rfl,
            .inl (by simp [some])⟩
        · split
          · exact ⟨allDigits_append.mpr ⟨digits, allDigits_zeros _⟩, zero, by simp [some],
              .inr (by rwa [List.head?_append_of_ne_nil _ some]), .inl (by simp)⟩
          · next positional small =>
              refine ⟨fun _ inside => digits _ (List.mem_of_mem_take inside),
                fun _ inside => digits _ (List.mem_of_mem_drop inside), ?_, .inr ?_, .inl ?_⟩
              · simp only [ne_eq, List.take_eq_nil_iff, some, or_false]
                omega
              · rw [List.head?_take, if_neg (by omega)]
                exact head
              · rw [ne_eq, List.drop_eq_nil_iff]
                omega

theorem value_layoutParts (decimal : Decimal) :
    (layoutParts decimal).decimal.value = decimal.value := by
  have whole := natural_toDigits decimal.digits
  have length : 0 < (Nat.toDigits 10 decimal.digits).length := Nat.length_toDigits_pos
  simp only [layoutParts]
  split
  · next zero =>
      rw [(Decimal.value_eq_zero_iff decimal).mpr zero, Decimal.value_eq_zero_iff]
      rfl
  · have exact (parts : Parts) (digits : natural (parts.whole ++ parts.fraction) = decimal.digits)
        (exponent : parts.power.getD 0 - parts.fraction.length = decimal.exponent) :
        parts.decimal.value = decimal.value := by
      rw [Parts.decimal, digits, exponent]
    split
    · refine exact _ (by rw [List.take_append_drop, whole]) ?_
      simp only [Option.getD_some, List.length_drop]
      omega
    · split
      · next low =>
          refine exact _ ?_ ?_
          · change natural (List.replicate 1 '0' ++ (List.replicate _ '0' ++ _)) = _
            rw [natural_append, natural_append, natural_zeros, natural_zeros, whole]
            simp
          · simp only [Option.getD_none, List.length_append, List.length_replicate]
            omega
      · split
        · next high =>
            obtain ⟨count, same⟩ := Int.eq_ofNat_of_zero_le high
            have zeros : natural ['0'] = 0 := rfl
            simp only [Parts.decimal, Decimal.value, same, natural_append, natural_zeros, whole,
              zeros, Int.natAbs_natCast, List.length_replicate, List.length_singleton,
              Option.getD_none, add_zero, pow_one, Nat.cast_mul, Nat.cast_pow, Nat.cast_ofNat,
              Nat.cast_one, zero_sub, zpow_neg, zpow_one, zpow_natCast]
            field_simp
        · next positional small =>
            refine exact _ (by rw [List.take_append_drop, whole]) ?_
            simp only [Option.getD_none, List.length_drop]
            omega

/-! ## Reading numerals -/

def Stops (rest : Text) : Prop := ∀ character ∈ rest.head?, character.isDigit = false

theorem takeWhile_digits {digits rest : Text} (all : AllDigits digits) (stops : Stops rest) :
    (digits ++ rest).takeWhile Char.isDigit = digits := by
  rw [List.takeWhile_append_of_pos all]
  cases rest with
  | nil => rw [List.takeWhile_nil, List.append_nil]
  | cons character rest =>
      rw [List.takeWhile_cons_of_neg (by simp [stops character rfl]), List.append_nil]

theorem exists_exponentText (exponent : Int) :
    ∃ digits, digits ≠ [] ∧ AllDigits digits ∧ natural digits = exponent.natAbs ∧
      Decimal.exponentText exponent = (if exponent < 0 then '-' else '+') :: digits := by
  have all := allDigits_toDigits exponent.natAbs
  have size := natural_toDigits exponent.natAbs
  by_cases short : (Nat.toDigits 10 exponent.natAbs).length < 2
  · refine ⟨'0' :: Nat.toDigits 10 exponent.natAbs, List.cons_ne_nil _ _,
      allDigits_append.mpr ⟨allDigits_zeros 1, all⟩, ?_, ?_⟩
    · have zero : natural ['0'] = 0 := rfl
      rw [← List.singleton_append, natural_append, size, zero, Nat.zero_mul, Nat.zero_add]
    · simp only [Decimal.exponentText, if_pos short]
  · refine ⟨_, Nat.toDigits_ne_nil, all, size, ?_⟩
    simp only [Decimal.exponentText, if_neg short]

namespace Parts

variable {parts : Parts}

theorem stops_powered (parts : Parts) : Stops parts.powered := by
  unfold powered
  cases parts.power with
  | none => simp [Stops]
  | some exponent => simp [Stops]

theorem exponent?_powered (parts : Parts) :
    exponent? parts.powered = some (parts.power.getD 0) := by
  unfold powered
  cases parts.power with
  | none => rfl
  | some exponent =>
      obtain ⟨digits, some, all, size, written⟩ := exists_exponentText exponent
      have allOf : digits.all Char.isDigit = true := List.all_eq_true.mpr all
      rw [Option.elim_some, written]
      by_cases negative : exponent < 0
      · simp [exponent?, sign, some, allOf, size, negative, abs_of_neg]
      · have most : (exponent.natAbs : Int) = exponent := by omega
        simp [exponent?, sign, some, allOf, size, negative, most]

theorem decimal?_text (proper : parts.Proper) : decimal? parts.text = some parts.decimal := by
  have powers := parts.exponent?_powered
  have stops : Stops (parts.pointed ++ parts.powered) := by
    unfold pointed
    split
    · exact parts.stops_powered
    · simp [Stops]
  have whole : parts.text.takeWhile Char.isDigit = parts.whole :=
    takeWhile_digits proper.whole stops
  have rest : parts.text.drop parts.whole.length = parts.pointed ++ parts.powered := List.drop_left
  simp only [decimal?, whole, rest, decimal]
  by_cases pointless : parts.fraction = []
  · have bare : parts.pointed ++ parts.powered = parts.powered := by
      rw [pointed, if_pos pointless, List.nil_append]
    rw [bare, pointless]
    cases power : parts.power with
    | none =>
        have none : parts.powered = [] := by rw [powered, power]; rfl
        rw [none, power] at powers
        simp [none, proper.present, powers]
    | some exponent =>
        have marked : parts.powered = 'e' :: Decimal.exponentText exponent := by
          rw [powered, power]; rfl
        rw [marked, power] at powers
        simp [marked, proper.present, powers]
  · have point : parts.pointed ++ parts.powered = '.' :: (parts.fraction ++ parts.powered) := by
      rw [pointed, if_neg pointless, List.cons_append]
    have behind : (parts.fraction ++ parts.powered).takeWhile Char.isDigit = parts.fraction :=
      takeWhile_digits proper.fraction parts.stops_powered
    simp [point, behind, proper.present, powers]

end Parts

def signed (negative : Bool) (text : Text) : Text := if negative then '-' :: text else text

theorem exists_digit {parts : Parts} (proper : parts.Proper) :
    ∃ digit rest, parts.text = digit :: rest ∧ digit.isDigit = true := by
  obtain ⟨digit, others, whole⟩ := List.exists_cons_of_ne_nil proper.present
  refine ⟨digit, others ++ (parts.pointed ++ parts.powered), ?_, ?_⟩
  · rw [Parts.text, whole, List.cons_append]
  · exact proper.whole digit (by simp [whole])

theorem toLower_of_isDigit {digit : Char} (isDigit : digit.isDigit = true) :
    digit.toLower = digit := by
  simp only [Char.isDigit, Bool.and_eq_true, decide_eq_true_eq, ge_iff_le,
    UInt32.le_iff_toNat_le] at isDigit
  refine dif_neg fun upper => ?_
  simp only [ge_iff_le, UInt32.le_iff_toNat_le] at upper
  have between : '9'.val.toNat < 'A'.val.toNat := by decide
  omega

theorem read_signed {parts : Parts} (proper : parts.Proper) (negative : Bool) :
    read (signed negative parts.text) = some (parts.decimal.toNumber negative) := by
  obtain ⟨digit, rest, written, isDigit⟩ := exists_digit proper
  have split : sign (signed negative parts.text) = (negative, parts.text) := by
    cases negative with
    | true => rfl
    | false =>
        have plus : digit ≠ '+' := ne_of_isDigit isDigit rfl
        have minus : digit ≠ '-' := ne_of_isDigit isDigit rfl
        rw [signed, if_neg Bool.false_ne_true, written]
        unfold sign
        split <;> simp_all
  have words (word : Text) (isLetter : ∀ letter ∈ word.head?, letter.isDigit = false) :
      String.ofList (parts.text.map Char.toLower) ≠ String.ofList word := by
    intro spelled
    have same := congrArg List.head? (String.ofList_injective spelled)
    rw [written, List.map_cons, List.head?_cons, toLower_of_isDigit isDigit] at same
    rw [isLetter digit same.symm] at isDigit
    nomatch isDigit
  have infinite : String.ofList (parts.text.map Char.toLower) ≠ "inf" :=
    words ['i', 'n', 'f'] (by simp)
  have infinity : String.ofList (parts.text.map Char.toLower) ≠ "infinity" :=
    words ['i', 'n', 'f', 'i', 'n', 'i', 't', 'y'] (by simp)
  have none : String.ofList (parts.text.map Char.toLower) ≠ "nan" :=
    words ['n', 'a', 'n'] (by simp)
  simp only [read, split, infinite, infinity, none, decide_false, Bool.or_self,
    Bool.false_eq_true, if_false, Parts.decimal?_text proper, Option.map_some]

/-! ## Reading what a number is written as -/

theorem exists_parts {mantissa : Nat} {exponent : Int} (fits : Number.Fits mantissa exponent)
    (negative : Bool) :
    ∃ parts : Parts, parts.Proper ∧
      Number.text (.finite negative mantissa exponent) = signed negative parts.text ∧
      parts.decimal.toNumber negative = .finite negative mantissa exponent := by
  by_cases zero : mantissa = 0
  · subst zero
    have least : exponent = Number.leastExponent := fits.full.resolve_left (by decide)
    refine ⟨layoutParts ⟨0, 0⟩, proper_layoutParts _, ?_, ?_⟩
    · rfl
    · rw [least]
      cases negative <;> rfl
  · refine ⟨layoutParts (Decimal.shortest mantissa exponent), proper_layoutParts _, ?_, ?_⟩
    · simp only [Number.text, if_neg zero, layout_eq, signed]
    · rw [Decimal.toNumber_congr (value_layoutParts _), Decimal.toNumber_shortest fits]

end Numeral

end CommandFile
