import CommandFile.Toml.Reader
import Mathlib.Data.List.Basic

/-!
# Remainders

A reader of a settings file takes a beginning of the text and leaves the rest.  So whatever it
complains of lies in the text: an integer of too many digits has them there.
-/

namespace CommandFile.Toml

variable {α β : Type} {text rest : Text}

/-! ## What a reader leaves -/

def Leaves (text : Text) (read : Option (α × Text)) : Prop :=
  ∀ found, read = some found → found.2 <:+ text

@[simp] theorem leaves_none : Leaves text (none : Option (α × Text)) := nofun

theorem leaves_some {found : α × Text} (suffix : found.2 <:+ text) : Leaves text (some found) := by
  rintro _ ⟨⟩
  exact suffix

theorem Leaves.within {read : Option (α × Text)} (leaves : Leaves rest read)
    (suffix : rest <:+ text) : Leaves text read :=
  fun found same => (leaves found same).trans suffix

theorem Leaves.map {read : Option (α × Text)} (leaves : Leaves text read) (change : α → β) :
    Leaves text (read.map fun found => (change found.1, found.2)) := by
  intro found same
  obtain ⟨before, readBefore, rfl⟩ := Option.map_eq_some_iff.mp same
  exact leaves before readBefore

theorem leaves_bind {read : Option β} {next : β → Option (α × Text)}
    (nexts : ∀ given, Leaves text (next given)) : Leaves text (read.bind next) := by
  intro found same
  obtain ⟨given, -, readNext⟩ := Option.bind_eq_some_iff.mp same
  exact nexts given found readNext

theorem Leaves.push {read : Option (Text × Text)} (leaves : Leaves text read) (character : Char) :
    Leaves text (push character read) :=
  leaves.map (character :: ·)

/-! ## Strings and keys -/

theorem leaves_basic (text : Text) : Leaves text (basic text) := by
  fun_induction basic text with
  | case1 => exact leaves_none
  | case2 rest => exact leaves_some (List.suffix_cons _ _)
  | case3 a b c d rest ih =>
      exact leaves_bind fun character =>
        (ih.push character).within (List.suffix_append [_, _, _, _, _, _] rest)
  | case4 a b c d e f g h rest ih =>
      exact leaves_bind fun character =>
        (ih.push character).within (List.suffix_append [_, _, _, _, _, _, _, _, _, _] rest)
  | case5 mark rest _ _ ih =>
      exact leaves_bind fun character => (ih.push character).within (List.suffix_append [_, _] rest)
  | case6 => exact leaves_none
  | case7 character rest _ _ _ _ _ ih => exact (ih.push character).within (List.suffix_cons _ _)

theorem leaves_basicLines (place : Place) (text : Text) :
    Leaves text (basicLines place text) := by
  fun_induction basicLines place text
  case case1 | case4 | case14 => exact leaves_none
  case case2 ih | case3 ih | case13 ih => exact ih.within (List.suffix_cons _ _)
  case case10 ih | case11 ih => exact ih.within (List.suffix_append [_, _] _)
  case case5 => exact leaves_some (List.suffix_append [_, _, _, _, _] _)
  case case6 => exact leaves_some (List.suffix_append [_, _, _, _] _)
  case case7 => exact leaves_some (List.suffix_append [_, _, _] _)
  case case8 ih =>
      exact leaves_bind fun character =>
        (ih.push character).within (List.suffix_append [_, _, _, _, _, _] _)
  case case9 ih =>
      exact leaves_bind fun character =>
        (ih.push character).within (List.suffix_append [_, _, _, _, _, _, _, _, _, _] _)
  case case12 ih =>
      exact leaves_bind fun character => (ih.push character).within (List.suffix_append [_, _] _)
  case case15 ih => exact (ih.push _).within (List.suffix_cons _ _)

theorem leaves_literal (text : Text) : Leaves text (literal text) := by
  fun_induction literal text
  case case1 | case3 => exact leaves_none
  case case2 => exact leaves_some (List.suffix_cons _ _)
  case case4 ih => exact (ih.push _).within (List.suffix_cons _ _)

theorem leaves_literalLines (text : Text) : Leaves text (literalLines text) := by
  fun_induction literalLines text
  case case1 | case5 => exact leaves_none
  case case2 => exact leaves_some (List.suffix_append [_, _, _, _, _] _)
  case case3 => exact leaves_some (List.suffix_append [_, _, _, _] _)
  case case4 => exact leaves_some (List.suffix_append [_, _, _] _)
  case case6 ih => exact (ih.push _).within (List.suffix_cons _ _)

theorem suffix_withoutFirstBreak (text : Text) : withoutFirstBreak text <:+ text := by
  unfold withoutFirstBreak
  split
  · exact List.suffix_cons _ _
  · exact List.suffix_refl _

theorem leaves_string? (text : Text) : Leaves text (string? text) := by
  unfold string?
  split
  · exact (leaves_basicLines _ _).within
      ((suffix_withoutFirstBreak _).trans (List.suffix_append [_, _, _] _))
  · exact (leaves_basic _).within (List.suffix_cons _ _)
  · exact (leaves_literalLines _).within
      ((suffix_withoutFirstBreak _).trans (List.suffix_append [_, _, _] _))
  · exact (leaves_literal _).within (List.suffix_cons _ _)
  · exact leaves_none

theorem suffix_skipSpaces (text : Text) : skipSpaces text <:+ text := List.dropWhile_suffix _

theorem suffix_skipComment? (skipped : skipComment? text = some rest) : rest <:+ text := by
  unfold skipComment? at skipped
  split at skipped
  · dsimp only at skipped
    split at skipped
    · nomatch skipped
    · cases skipped
      exact (List.drop_suffix _ _).trans (List.suffix_cons _ _)
  · cases skipped
    exact List.suffix_refl _

theorem suffix_skipBlank? {inComment : Bool} (skipped : skipBlank? inComment text = some rest) :
    rest <:+ text := by
  fun_induction skipBlank? inComment text
  case case1 | case7 =>
      cases skipped
      exact List.suffix_refl _
  case case3 => nomatch skipped
  case case2 ih | case4 ih | case5 ih | case6 ih => exact (ih skipped).trans (List.suffix_cons _ _)

theorem leaves_keyPart? (text : Text) : Leaves text (keyPart? text) := by
  unfold keyPart?
  split
  · exact (leaves_basic _).within (List.suffix_cons _ _)
  · exact (leaves_literal _).within (List.suffix_cons _ _)
  · split
    · exact leaves_none
    · exact leaves_some (List.drop_suffix _ _)

theorem leaves_key? (limit : Nat) (text : Text) : Leaves text (key? limit text) := by
  induction limit generalizing text with
  | zero => exact leaves_none
  | succ limit ih =>
      unfold key?
      cases part : keyPart? text with
      | none => exact leaves_none
      | some found =>
          obtain ⟨name, rest⟩ := found
          have behind := (suffix_skipSpaces rest).trans (leaves_keyPart? text _ part)
          dsimp only
          split
          · next others dotted =>
              rw [dotted] at behind
              exact ((ih _).map (name :: ·)).within
                ((suffix_skipSpaces others).trans ((List.suffix_cons _ _).trans behind))
          · exact leaves_some behind

/-! ## Numbers -/

theorem suffix_moreDigits (isDigit : Char → Bool) (text : Text) :
    (moreDigits isDigit text).2 <:+ text := by
  fun_induction moreDigits isDigit text
  case case1 ih => exact ih.trans (List.suffix_append [_, _] _)
  case case3 ih => exact ih.trans (List.suffix_cons _ _)
  all_goals exact List.suffix_refl _

theorem length_moreDigits (isDigit : Char → Bool) (text : Text) :
    (moreDigits isDigit text).1.length ≤ text.countP isDigit := by
  fun_induction moreDigits isDigit text
  case case1 digit more ih | case3 digit more ih =>
      have fewer : more.1.length ≤ _ := ih
      simp only [List.length_cons, List.countP_cons, digit, if_true]
      omega
  all_goals exact Nat.zero_le _

theorem leaves_digits? (isDigit : Char → Bool) (text : Text) :
    Leaves text (digits? isDigit text) := by
  unfold digits?
  split
  · split
    · exact leaves_some ((suffix_moreDigits _ _).trans (List.suffix_cons _ _))
    · exact leaves_none
  · exact leaves_none

theorem length_digits? {isDigit : Char → Bool} {found : Text × Text}
    (read : digits? isDigit text = some found) : found.1.length ≤ text.countP isDigit := by
  unfold digits? at read
  split at read
  · next digit rest =>
      split at read
      · next first =>
          cases read
          have more := length_moreDigits isDigit rest
          simp only [List.length_cons, List.countP_cons, first, if_true]
          omega
      · nomatch read
  · nomatch read

theorem leaves_based? (text : Text) : Leaves text (based? text) := by
  unfold based?
  split
  · exact ((leaves_digits? _ _).map fun digits => Value.integer (baseValue 16 digits)).within
      (List.suffix_append [_, _] _)
  · exact ((leaves_digits? _ _).map fun digits => Value.integer (baseValue 8 digits)).within
      (List.suffix_append [_, _] _)
  · exact ((leaves_digits? _ _).map fun digits => Value.integer (baseValue 2 digits)).within
      (List.suffix_append [_, _] _)
  · exact leaves_none

theorem leaves_whole? (text : Text) : Leaves text (whole? text) := by
  unfold whole?
  split
  · exact leaves_some (List.suffix_cons _ _)
  · exact leaves_digits? _ _

theorem length_whole? {found : Text × Text} (read : whole? text = some found) :
    found.1.length ≤ text.countP Char.isDigit := by
  unfold whole? at read
  split at read
  · cases read
    simp
  · exact length_digits? read

theorem suffix_fraction (text : Text) : (fraction text).2 <:+ text := by
  unfold fraction
  split
  · split
    · next read => exact (leaves_digits? _ _ _ read).trans (List.suffix_cons _ _)
    · exact List.suffix_refl _
  · exact List.suffix_refl _

theorem suffix_exponent (text : Text) : (exponent text).2 <:+ text := by
  unfold exponent
  split
  · next mark rest =>
      split
      · split
        next sign digits signed =>
            have suffix : digits <:+ rest := by
              split at signed
              · cases signed
                exact List.suffix_cons _ _
              · cases signed
                exact List.suffix_cons _ _
              · cases signed
                exact List.suffix_refl _
            split
            · next read =>
                exact ((leaves_digits? _ _ _ read).trans suffix).trans (List.suffix_cons _ _)
            · exact List.suffix_refl _
      · exact List.suffix_refl _
  · exact List.suffix_refl _

def Founded (text : Text) : Refusal → Prop
  | .malformed => True
  | .tooManyDigits count => greatestWidth < count ∧ count ≤ text.countP Char.isDigit

theorem Founded.within {refusal : Refusal} (founded : Founded rest refusal)
    (suffix : rest <:+ text) : Founded text refusal := by
  cases refusal with
  | malformed => trivial
  | tooManyDigits count => exact ⟨founded.1, Nat.le_trans founded.2 suffix.sublist.countP_le⟩

theorem founded_integer {negative : Bool} {digits : Text} {refusal : Refusal}
    (within : digits.length ≤ text.countP Char.isDigit)
    (refused : integer negative digits = .error refusal) : Founded text refusal := by
  unfold integer at refused
  dsimp only at refused
  split at refused
  · next long =>
      cases refused
      exact ⟨long, within⟩
  · nomatch refused

theorem founded_decimal? {value : Except Refusal Value}
    (read : decimal? text = some (value, rest)) :
    rest <:+ text ∧ ∀ refusal, value = .error refusal → Founded text refusal := by
  unfold decimal? at read
  split at read
  next sign unsigned signed =>
      have suffix : unsigned <:+ text := by
        split at signed
        · cases signed
          exact List.suffix_cons _ _
        · cases signed
          exact List.suffix_cons _ _
        · cases signed
          exact List.suffix_refl _
      -- Only the whole part is ever too long, for a number with a fraction is no integer.
      obtain ⟨⟨whole, behind⟩, readWhole, read⟩ := Option.bind_eq_some_iff.mp read
      have digits : whole.length ≤ text.countP Char.isDigit :=
        Nat.le_trans (length_whole? readWhole) suffix.sublist.countP_le
      have left : (exponent (fraction behind).2).2 <:+ text :=
        ((suffix_exponent _).trans (suffix_fraction behind)).trans
          ((leaves_whole? _ _ readWhole).trans suffix)
      dsimp only at read
      split at read
      · cases read
        exact ⟨left, fun refusal refused => founded_integer digits refused⟩
      · obtain ⟨number, -, same⟩ := Option.map_eq_some_iff.mp read
        cases same
        exact ⟨left, nofun⟩

theorem suffix_of_after? {word : Text} (after : text.after? word = some rest) : rest <:+ text := by
  rw [Text.after?_eq_some_iff.mp after]
  exact List.suffix_append _ _

theorem leaves_special? (text : Text) : Leaves text (special? text) := by
  intro found read
  obtain ⟨⟨word, number⟩, -, read⟩ := List.exists_of_findSome?_eq_some read
  obtain ⟨rest, after, rfl⟩ := Option.map_eq_some_iff.mp read
  exact suffix_of_after? after

/-! ## Readers that refuse -/

structure Sound (text : Text) (read : Except Refusal (α × Text)) : Prop where
  leaves : ∀ found, read = .ok found → found.2 <:+ text
  founded : ∀ refusal, read = .error refusal → Founded text refusal

theorem sound_ok {found : α × Text} (suffix : found.2 <:+ text) : Sound text (.ok found) := by
  refine ⟨?_, nofun⟩
  rintro _ ⟨⟩
  exact suffix

theorem sound_malformed : Sound text (.error .malformed : Except Refusal (α × Text)) := by
  refine ⟨nofun, ?_⟩
  rintro _ ⟨⟩
  trivial

theorem Sound.within {read : Except Refusal (α × Text)} (sound : Sound rest read)
    (suffix : rest <:+ text) : Sound text read :=
  ⟨fun found same => (sound.leaves found same).trans suffix,
    fun refusal same => (sound.founded refusal same).within suffix⟩

theorem Sound.map {read : Except Refusal (α × Text)} (sound : Sound text read) (change : α → β) :
    Sound text (read.map fun found => (change found.1, found.2)) := by
  cases read with
  | error refusal => exact ⟨nofun, fun other same => sound.founded other (by cases same; rfl)⟩
  | ok found => exact sound_ok (sound.leaves found rfl)

theorem Sound.bind {read : Except Refusal (α × Text)} (sound : Sound text read)
    {next : α × Text → Except Refusal (β × Text)} (nexts : ∀ found, Sound found.2 (next found)) :
    Sound text (read.bind next) := by
  cases read with
  | error refusal => exact ⟨nofun, fun other same => sound.founded other (by cases same; rfl)⟩
  | ok found => exact (nexts found).within (sound.leaves found rfl)

theorem Leaves.sound {read : Option (α × Text)} (leaves : Leaves text read) :
    Sound text (orMalformed read) := by
  cases read with
  | none => exact sound_malformed
  | some found => exact sound_ok (leaves found rfl)

theorem sound_orMalformed_bind {read : Option β} {next : β → Except Refusal (α × Text)}
    (nexts : ∀ given, read = some given → Sound text (next given)) :
    Sound text ((orMalformed read).bind next) := by
  cases read with
  | none => exact sound_malformed
  | some given => exact nexts given rfl

theorem sound_number (text : Text) : Sound text (number text) := by
  unfold number
  split
  · next based => exact sound_ok (leaves_based? text _ based)
  · next value rest _ decimal =>
      obtain ⟨left, founded⟩ := founded_decimal? decimal
      cases value with
      | error refusal => exact ⟨nofun, fun other same => founded other (by cases same; rfl)⟩
      | ok value => exact sound_ok left
  · exact (leaves_special? text).sound

/-! ## Dates and times -/

theorem leaves_fixed? (count : Nat) (text : Text) : Leaves text (fixed? count text) := by
  unfold fixed?
  dsimp only
  split
  · exact leaves_some (List.drop_suffix _ _)
  · exact leaves_none

theorem Leaves.filter {read : Option (α × Text)} (leaves : Leaves text read)
    (keep : α × Text → Bool) : Leaves text (read.filter keep) := by
  intro found same
  exact leaves found (Option.filter_eq_some_iff.mp same).1

theorem leaves_upTo? (limit : Nat) (text : Text) : Leaves text (upTo? limit text) :=
  (leaves_fixed? 2 text).filter _

theorem suffix_mark? {mark : Char} (found : mark? mark text = some rest) : rest <:+ text := by
  unfold mark? at found
  split at found
  · split at found
    · cases found
      exact List.suffix_cons _ _
    · nomatch found
  · nomatch found

theorem suffix_clock? (found : clock? text = some rest) : rest <:+ text := by
  simp only [clock?, Option.bind_eq_bind, Option.bind_eq_some_iff] at found
  obtain ⟨⟨_, _⟩, hours, _, colon, ⟨_, _⟩, minutes, _, secondColon, ⟨_, behind⟩, seconds, found⟩ :=
    found
  have left : behind <:+ text :=
    ((((leaves_upTo? _ _ _ seconds).trans (suffix_mark? secondColon)).trans
      (leaves_upTo? _ _ _ minutes)).trans (suffix_mark? colon)).trans (leaves_upTo? _ _ _ hours)
  split at found
  · next digit others point =>
      have within : '.' :: digit :: others <:+ text := point ▸ left
      split at found
      · cases found
        exact ((List.dropWhile_suffix _).trans (List.suffix_append [_, _] _)).trans within
      · cases found
        exact left
  · cases found
    exact left

theorem suffix_offset (text : Text) : offset text <:+ text := by
  unfold offset
  split
  · exact List.suffix_cons _ _
  · exact List.suffix_cons _ _
  · next sign rest _ _ =>
      dsimp only
      split
      · next behind read =>
          simp only [Option.bind_eq_bind, Option.bind_eq_some_iff] at read
          obtain ⟨⟨_, _⟩, hours, _, colon, minutes⟩ := read
          split
          · exact (((leaves_upTo? _ _ _ minutes).trans (suffix_mark? colon)).trans
              (leaves_upTo? _ _ _ hours)).trans (List.suffix_cons _ _)
          · exact List.suffix_refl _
      · exact List.suffix_refl _
  · exact List.suffix_refl _

theorem leaves_day? (text : Text) : Leaves text (day? text) := by
  intro found read
  simp only [day?, Option.bind_eq_bind, Option.bind_eq_some_iff] at read
  obtain ⟨⟨_, _⟩, years, _, dash, ⟨_, _⟩, months, _, secondDash, ⟨_, behind⟩, days, same⟩ := read
  cases same
  exact (((((leaves_upTo? _ _).filter _ _ days).trans (suffix_mark? secondDash)).trans
    ((leaves_upTo? _ _).filter _ _ months)).trans (suffix_mark? dash)).trans
      (leaves_fixed? _ _ _ years)

theorem leaves_moment? {found : Option (Value × Text)} (read : moment? text = some found) :
    Leaves text found := by
  unfold moment? at read
  split at read
  · obtain ⟨rest, clock, rfl⟩ := Option.map_eq_some_iff.mp read
    exact leaves_some (suffix_clock? clock)
  · next year month day rest dated =>
      have left := leaves_day? text _ dated
      split at read
      · cases read
        exact leaves_none
      · dsimp only at read
        split at read
        · next behind clock =>
            cases read
            refine leaves_some ((suffix_offset _).trans (List.IsSuffix.trans ?_ left))
            split at clock
            · split at clock
              · exact (suffix_clock? clock).trans (List.suffix_cons _ _)
              · nomatch clock
            · nomatch clock
        · cases read
          exact leaves_some left

/-! ## Values and lines -/

theorem sound_value_succ {limit : Nat} (itemses : ∀ text, Sound text (items limit text))
    (entrieses : ∀ table marks text, Sound text (entries limit table marks text)) (text : Text) :
    Sound text (value (limit + 1) text) := by
  rw [value.eq_def]
  dsimp only
  split
  · next rest =>
      refine (sound_orMalformed_bind fun behind skipped => ?_).within (List.suffix_cons _ rest)
      exact ((itemses behind).map Value.array).within (suffix_skipBlank? skipped)
  · next rest =>
      refine Sound.within ?_ ((suffix_skipSpaces rest).trans (List.suffix_cons _ rest))
      generalize skipSpaces rest = spaced
      split
      · exact sound_ok (List.suffix_cons _ _)
      · exact (entrieses _ _ _).map Value.table
  · exact ((leaves_string? _).map Value.string).sound
  · exact ((leaves_string? _).map Value.string).sound
  · split
    · next after => exact sound_ok (suffix_of_after? after)
    · next after _ => exact sound_ok (suffix_of_after? after)
    · split
      · next moment => exact (leaves_moment? moment).sound
      · exact sound_number text

theorem sound_items_succ {limit : Nat} (values : ∀ text, Sound text (value limit text))
    (itemses : ∀ text, Sound text (items limit text)) (text : Text) :
    Sound text (items (limit + 1) text) := by
  rw [items.eq_def]
  dsimp only
  split
  · exact sound_ok (List.suffix_cons _ _)
  · refine (values text).bind fun found => ?_
    refine sound_orMalformed_bind fun behind skipped => ?_
    refine Sound.within ?_ (suffix_skipBlank? skipped)
    split
    · exact sound_ok (List.suffix_cons _ _)
    · next others =>
        refine (sound_orMalformed_bind fun last skipped => ?_).within (List.suffix_cons _ others)
        exact ((itemses last).map (found.1 :: ·)).within (suffix_skipBlank? skipped)
    · exact sound_malformed

theorem sound_entries_succ {limit : Nat} (values : ∀ text, Sound text (value limit text))
    (entrieses : ∀ table marks text, Sound text (entries limit table marks text))
    (table : Table) (marks : List Mark) (text : Text) :
    Sound text (entries (limit + 1) table marks text) := by
  rw [entries.eq_def]
  dsimp only
  refine (leaves_key? limit text).sound.bind fun found => ?_
  split
  · next path rest =>
      refine Sound.within ?_ (List.suffix_cons _ rest)
      refine ((values _).bind fun found => ?_).within (suffix_skipSpaces rest)
      split
      · exact sound_malformed
      · refine sound_orMalformed_bind fun table _ => ?_
        refine Sound.within ?_ (suffix_skipSpaces found.2)
        generalize skipSpaces found.2 = spaced
        split
        · exact sound_ok (List.suffix_cons _ _)
        · next behind =>
            exact (entrieses _ _ _).within ((suffix_skipSpaces behind).trans (List.suffix_cons _ _))
        · exact sound_malformed
  · exact sound_malformed

theorem sound_below (limit : Nat) :
    (∀ text, Sound text (value limit text)) ∧ (∀ text, Sound text (items limit text)) ∧
      ∀ table marks text, Sound text (entries limit table marks text) := by
  induction limit with
  | zero =>
      refine ⟨fun text => ?_, fun text => ?_, fun table marks text => ?_⟩
      · rw [value]
        exact sound_malformed
      · rw [items]
        exact sound_malformed
      · rw [entries]
        exact sound_malformed
  | succ limit ih =>
      obtain ⟨values, itemses, entrieses⟩ := ih
      exact ⟨sound_value_succ itemses entrieses, sound_items_succ values itemses,
        sound_entries_succ values entrieses⟩

theorem sound_value (limit : Nat) (text : Text) : Sound text (value limit text) :=
  (sound_below limit).1 text

theorem sound_changed {behind : Text} (suffix : behind <:+ text) (changed : Option Document) :
    Sound text (orMalformed (changed.map (·, behind))) := by
  cases changed with
  | none => exact sound_malformed
  | some document => exact sound_ok suffix

theorem sound_statement (document : Document) (text : Text) :
    Sound text (document.statement text) := by
  unfold Document.statement
  dsimp only
  split
  · next rest =>
      refine Sound.within ?_ ((suffix_skipSpaces rest).trans (List.suffix_append [_, _] rest))
      refine (leaves_key? _ _).sound.bind fun found => ?_
      split
      · next behind => exact sound_changed (behind ▸ List.suffix_append [_, _] _) _
      · exact sound_malformed
  · next rest _ =>
      refine Sound.within ?_ ((suffix_skipSpaces rest).trans (List.suffix_cons _ rest))
      refine (leaves_key? _ _).sound.bind fun found => ?_
      split
      · next behind => exact sound_changed (behind ▸ List.suffix_cons _ _) _
      · exact sound_malformed
  · refine (leaves_key? _ _).sound.bind fun found => ?_
    split
    · next rest behind =>
        rw [behind]
        refine Sound.within ?_ ((suffix_skipSpaces rest).trans (List.suffix_cons _ rest))
        exact (sound_value _ _).bind fun found => sound_changed (List.suffix_refl _) _
    · exact sound_malformed

theorem Sound.founded_bind {read : Except Refusal (α × Text)} (sound : Sound text read)
    {next : α × Text → Except Refusal β} {refusal : Refusal}
    (nexts : ∀ found, next found = .error refusal → Founded found.2 refusal)
    (refused : read.bind next = .error refusal) : Founded text refusal := by
  cases read with
  | error other => exact sound.founded refusal (by cases refused; rfl)
  | ok found => exact (nexts found refused).within (sound.leaves found rfl)

theorem founded_lines {limit : Nat} {document : Document} {refusal : Refusal}
    (refused : document.lines limit text = .error refusal) : Founded text refusal := by
  induction limit generalizing document text with
  | zero =>
      cases refused
      trivial
  | succ limit ih =>
      have spaces := suffix_skipSpaces text
      unfold Document.lines at refused
      split at refused
      · nomatch refused
      · next rest spaced =>
          rw [spaced] at spaces
          exact (ih refused).within ((List.suffix_cons _ _).trans spaces)
      · next character rest _ spaced =>
          rw [spaced] at spaces
          -- A comment is left to the skipping below, anything else is a statement.
          have sound : Sound (character :: rest)
              (if character = '#' then .ok (document, character :: rest)
                else document.statement (character :: rest)) := by
            split
            · exact sound_ok (List.suffix_refl _)
            · exact sound_statement _ _
          refine (sound.founded_bind (fun found refused => ?_) refused).within spaces
          obtain ⟨document, left⟩ := found
          dsimp only at refused ⊢
          cases skipped : skipComment? (skipSpaces left) with
          | none =>
              rw [skipped] at refused
              cases refused
              trivial
          | some behind =>
              rw [skipped] at refused
              have suffix := (suffix_skipComment? skipped).trans (suffix_skipSpaces left)
              simp only [orMalformed, Except.bind] at refused
              split at refused
              · nomatch refused
              · exact ((ih refused).within (List.suffix_cons _ _)).within suffix
              · cases refused
                trivial

/-! ## Whole files -/

theorem countP_unifyBreaks (text : Text) :
    (unifyBreaks text).countP Char.isDigit = text.countP Char.isDigit := by
  fun_induction unifyBreaks text with
  | case1 => rfl
  | case2 rest ih =>
      rw [List.countP_cons, List.countP_cons, List.countP_cons, ih]
      rfl
  | case3 character rest _ ih => rw [List.countP_cons, List.countP_cons, ih]

theorem founded_read {count : Nat} (read : Toml.read text = .error (.tooManyDigits count)) :
    greatestWidth < count ∧ count ≤ text.countP Char.isDigit := by
  rw [← countP_unifyBreaks text]
  unfold Toml.read at read
  dsimp only at read
  cases lines : Document.empty.lines ((unifyBreaks text).length + 1) (unifyBreaks text) with
  | error refusal =>
      rw [lines] at read
      cases read
      exact founded_lines lines
  | ok document =>
      rw [lines] at read
      nomatch read

end CommandFile.Toml
