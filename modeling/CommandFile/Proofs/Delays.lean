import CommandFile.Proofs.Layers
import CommandFile.Proofs.Places
import CommandFile.Proofs.Rounding
import CommandFile.Watch.Watcher
import Mathlib.Algebra.Order.Monoid.Unbundled.WithTop

/-!
# Delays

Numbers compare by what they stand for, and one that stands for nothing compares with none.  A
delay comes from the defaults, from an entry of a settings file, which has to be zero or above, or
from the environment, where zero takes the place of what is not above it.  So every delay in force
after loading is at least zero, and a debouncer takes it.
-/

namespace CommandFile

/-! ## Comparisons -/

namespace Number

def rational (negative : Bool) (mantissa : Nat) (exponent : Int) : ℚ :=
  let size : ℚ := mantissa * 2 ^ exponent
  if negative then -size else size

def value? : Number → Option (WithBot (WithTop ℚ))
  | .finite negative mantissa exponent => some (rational negative mantissa exponent : WithTop ℚ)
  | .infinite negative => some (if negative then ⊥ else ⊤)
  | .nan => none

instance : LE Number where
  le left right := ∃ low ∈ left.value?, ∃ high ∈ right.value?, low ≤ high

instance : LT Number where
  lt left right := ∃ low ∈ left.value?, ∃ high ∈ right.value?, low < high

variable {number : Number}

theorem rational_not (negative : Bool) (mantissa : Nat) (exponent : Int) :
    rational (!negative) mantissa exponent = -rational negative mantissa exponent := by
  cases negative <;> simp [rational]

theorem rational_pos_iff (negative : Bool) (mantissa : Nat) (exponent : Int) :
    0 < rational negative mantissa exponent ↔ negative = false ∧ mantissa ≠ 0 := by
  have power : (0 : ℚ) < 2 ^ exponent := by positivity
  cases negative with
  | false => simp [rational, power, Nat.pos_iff_ne_zero]
  | true =>
      have least : (0 : ℚ) ≤ mantissa * 2 ^ exponent := by positivity
      simpa [rational] using least

theorem rational_neg_iff (negative : Bool) (mantissa : Nat) (exponent : Int) :
    rational negative mantissa exponent < 0 ↔ negative = true ∧ mantissa ≠ 0 := by
  rw [← neg_pos, ← rational_not, rational_pos_iff, Bool.not_eq_false']

@[simp] theorem value?_zero : zero.value? = some 0 := by
  simp [value?, rational, zero]

theorem zero_le_iff_value : zero ≤ number ↔ ∃ value ∈ number.value?, 0 ≤ value := by
  change (∃ low ∈ zero.value?, _) ↔ _
  simp [value?_zero]

theorem zero_lt_iff_value : zero < number ↔ ∃ value ∈ number.value?, 0 < value := by
  change (∃ low ∈ zero.value?, _) ↔ _
  simp [value?_zero]

theorem lt_zero_iff_value : number < zero ↔ ∃ value ∈ number.value?, value < 0 := by
  change (∃ low ∈ number.value?, ∃ high ∈ zero.value?, _) ↔ _
  simp [value?_zero]

theorem lt_zero_iff : number < zero ↔ number.isBelowZero = true := by
  rw [lt_zero_iff_value]
  cases number with
  | finite negative mantissa exponent =>
      simp [value?, isBelowZero, rational_neg_iff]
  | infinite negative => cases negative <;> simp [value?, isBelowZero]
  | nan => simp [value?, isBelowZero]

theorem zero_le_iff : zero ≤ number ↔ number.isAtLeastZero = true := by
  rw [zero_le_iff_value]
  cases number with
  | finite negative mantissa exponent =>
      cases negative <;> simp [value?, isAtLeastZero, isBelowZero, ← not_lt, rational_neg_iff]
  | infinite negative => cases negative <;> simp [value?, isAtLeastZero, isBelowZero]
  | nan => simp [value?, isAtLeastZero]

theorem zero_lt_finite_iff (negative : Bool) (mantissa : Nat) (exponent : Int) :
    zero < finite negative mantissa exponent ↔ negative = false ∧ mantissa ≠ 0 := by
  simp [zero_lt_iff_value, value?, rational_pos_iff]

@[simp] theorem zero_lt_infinite_iff (negative : Bool) :
    zero < infinite negative ↔ negative = false := by
  have above : (0 : WithBot (WithTop ℚ)) < ⊤ := WithBot.coe_lt_coe.mpr (WithTop.coe_lt_top 0)
  cases negative <;> simp [zero_lt_iff_value, value?, above]

@[simp] theorem not_zero_lt_nan : ¬ zero < nan := by
  simp [zero_lt_iff_value, value?]

theorem clamp_cases (number : Number) :
    zero < number ∧ number.clamp = number ∨ ¬ zero < number ∧ number.clamp = zero := by
  cases number with
  | finite negative mantissa exponent =>
      rw [zero_lt_finite_iff]
      cases negative <;> by_cases none : mantissa = 0 <;> simp [clamp, none]
  | infinite negative =>
      rw [zero_lt_infinite_iff]
      cases negative <;> simp [clamp]
  | nan => exact .inr ⟨not_zero_lt_nan, rfl⟩

theorem zero_le_of_zero_lt (above : zero < number) : zero ≤ number := by
  obtain ⟨value, stands, positive⟩ := zero_lt_iff_value.mp above
  exact zero_le_iff_value.mpr ⟨value, stands, positive.le⟩

theorem not_lt_zero_of_zero_le (least : zero ≤ number) : ¬ number < zero := by
  rw [zero_le_iff_value] at least
  rw [lt_zero_iff_value]
  rintro ⟨value, stands, negative⟩
  obtain ⟨other, standsToo, natural⟩ := least
  obtain rfl := Option.some.inj (stands.symm.trans standsToo)
  exact absurd negative (not_lt.mpr natural)

theorem ne_nan_of_zero_le (least : zero ≤ number) : number ≠ nan := by
  rintro rfl
  obtain ⟨_, stands, -⟩ := zero_le_iff_value.mp least
  nomatch stands

end Number

/-! ## Entries -/

namespace Record

inductive Spells : Value → Number → Prop
  | float (number : Number) : Spells (.float number) number
  | integer {whole : Int} (finite : ∀ negative, Number.ofInt whole ≠ .infinite negative) :
      Spells (.integer whole) (.ofInt whole)
  | flag (flag : Bool) : Spells (.boolean flag) (.ofInt (if flag then 1 else 0))
  | numeral {text : Text} {number : Number} (read : Numeral.readLoosely text = some number) :
      Spells (.string text) number

theorem float_eq_ok_iff (value : Value) (number : Number) :
    float value = .ok number ↔ Spells value number := by
  constructor
  · intro read
    unfold float at read
    split at read
    · obtain rfl := Except.ok.inj read
      exact .float _
    · obtain rfl := Except.ok.inj read
      exact .flag _
    · split at read
      · nomatch read
      · next finite =>
          obtain rfl := Except.ok.inj read
          exact .integer finite
    · split at read
      · next found =>
          obtain rfl := Except.ok.inj read
          exact .numeral found
      · nomatch read
    · nomatch read
  · intro spells
    cases spells with
    | float => rfl
    | @integer whole finite =>
        unfold float
        dsimp only
        split
        · next negative infinite => exact absurd infinite (finite negative)
        · rfl
    | flag => rfl
    | numeral read => simp only [float, read]

theorem duration_eq_ok_iff (value : Value) (number : Number) :
    duration value = .ok number ↔ Spells value number ∧ Number.zero ≤ number := by
  rw [← float_eq_ok_iff, Number.zero_le_iff]
  unfold duration
  cases float value with
  | error problem => simp
  | ok given =>
      dsimp only
      split
      · next least =>
          refine ⟨fun same => ⟨same, ?_⟩, And.left⟩
          obtain rfl := Except.ok.inj same
          exact least
      · next low =>
          refine ⟨nofun, ?_⟩
          rintro ⟨same, least⟩
          obtain rfl := Except.ok.inj same
          exact absurd least low

end Record

namespace Environment

inductive DelayOver (environment : Environment) (below : Number) : Number → Prop
  | asked {number : Number} (set : environment.delay ≠ [])
      (read : Numeral.readWritten environment.delay = some number)
      (above : Number.zero < number) : DelayOver environment below number
  | raised {number : Number} (set : environment.delay ≠ [])
      (read : Numeral.readWritten environment.delay = some number)
      (low : ¬ Number.zero < number) : DelayOver environment below .zero
  | kept (unread : environment.delay = [] ∨ Numeral.readWritten environment.delay = none) :
      DelayOver environment below below

variable {environment : Environment}

theorem Overrides.delayOver {below settings : Settings}
    (overrides : environment.Overrides below settings) :
    environment.DelayOver below.watch.delay settings.watch.delay := by
  by_cases unset : environment.delay = []
  · rw [overrides.delayKept (.inl unset)]
    exact .kept (.inl unset)
  · cases read : Numeral.readWritten environment.delay with
    | none =>
        rw [overrides.delayKept (.inr read)]
        exact .kept (.inr read)
    | some number =>
        rw [overrides.delaySet number unset read]
        rcases number.clamp_cases with ⟨above, same⟩ | ⟨low, same⟩
        · rw [same]
          exact .asked unset read above
        · rw [same]
          exact .raised unset read low

theorem DelayOver.zero_le {below delay : Number} (overlaid : environment.DelayOver below delay)
    (least : Number.zero ≤ below) : Number.zero ≤ delay := by
  cases overlaid with
  | asked set read above => exact Number.zero_le_of_zero_lt above
  | raised set read low => exact Number.zero_le_iff.mpr rfl
  | kept unread => exact least

end Environment

/-! ## Debouncers -/

namespace Delay

theorem seconds_eq (negative : Bool) (mantissa : Nat) (exponent : Int) :
    seconds negative mantissa exponent = Number.rational negative mantissa exponent := by
  simp only [seconds, Number.rational, Number.quotient_ratio]

theorem value?_of_after {number : Number} (least : Number.zero ≤ number) {now due : Rat}
    (ends : (ofNumber number).after now = some due) :
    number.value? = some ((due - now : ℚ) : WithTop ℚ) := by
  cases number with
  | finite negative mantissa exponent =>
      obtain rfl := Option.some.inj ends
      rw [seconds_eq, add_sub_cancel_left]
      rfl
  | infinite negative =>
      cases negative with
      | false => nomatch ends
      | true => exact absurd (Number.zero_le_iff.mp least) (by decide)
  | nan => nomatch ends

theorem le_of_after {number : Number} (least : Number.zero ≤ number) {now due : Rat}
    (ends : (ofNumber number).after now = some due) : now ≤ due := by
  obtain ⟨value, stands, natural⟩ := Number.zero_le_iff_value.mp least
  obtain rfl := Option.some.inj (stands.symm.trans (value?_of_after least ends))
  have later : 0 ≤ due - now := by exact_mod_cast natural
  exact sub_nonneg.mp later

end Delay

theorem Debouncer.delayFor_of_zero_le {delay : Number} (least : Number.zero ≤ delay) :
    delayFor none delay = .ok (.ofNumber delay) := by
  have above : delay.isBelowZero ≠ true :=
    fun below => Number.not_lt_zero_of_zero_le least (Number.lt_zero_iff.mpr below)
  exact if_neg above

theorem Watcher.ofSettings_of_zero_le {watch : WatchSettings} (least : Number.zero ≤ watch.delay)
    (named : '\x00' ∉ watch.file.text) (dispatcher : Dispatcher) (tree : Tree) :
    ∃ watcher, ofSettings watch dispatcher tree = .ok watcher ∧
      watcher.debouncer.delay = .ofNumber watch.delay := by
  have free : ¬ watch.file.text.contains '\x00' = true := by simpa using named
  unfold ofSettings new
  rw [if_neg free]
  simp only [Debouncer.delayFor_of_zero_le least]
  exact ⟨_, rfl, rfl⟩

namespace Store

variable {tree : Tree} {found : Found} {offered : Settings}

inductive Spelled : Found → Number → Prop
  | entry {text : Text} {table entries : Table} {value : Value} {delay : Number}
      (read : Toml.read text = .ok table)
      (watched : table.get? (Text.ofString "watch") = some (.table entries))
      (given : entries.get? (Text.ofString "delay") = some value)
      (spells : Record.Spells value delay) : Spelled (.content (Utf8.encode text)) delay

theorem delay_of_offers (offers : Offers found offered) :
    offered.watch.delay = WatchSettings.default.delay ∨
      Spelled found offered.watch.delay ∧ Number.zero ≤ offered.watch.delay := by
  cases offers with
  | missing => exact .inl rfl
  | folder => exact .inl rfl
  | @content text _ gives =>
      cases gives with
      | malformed => exact .inl rfl
      | invalid => exact .inl rfl
      | @valid table watch debug read watches debugs =>
          unfold WatchIn at watches
          split at watches
          · next entries watched =>
              have reads := watches.delay
              unfold Record.Reads at reads
              split at reads
              · exact .inl reads
              · next value given =>
                  obtain ⟨spells, least⟩ := (Record.duration_eq_ok_iff value _).mp reads
                  exact .inr ⟨.entry read watched given spells, least⟩
          · exact .inl (congrArg WatchSettings.delay watches)

theorem zero_le_of_offers (offers : Offers found offered) :
    Number.zero ≤ offered.watch.delay := by
  rcases delay_of_offers offers with default | ⟨-, least⟩
  · rw [default]
    exact Number.zero_le_iff.mpr rfl
  · exact least

/-! ## Loading -/

theorem finds_or_refused (store : Store) (tree : Tree) :
    (∃ found, Finds tree store.path.text found) ∨
      ∃ failure, store.present tree = .error failure := by
  by_cases nul : '\x00' ∈ store.path.text
  · exact .inl ⟨_, .unnamed nul⟩
  · cases probed : tree.probe store.path.text with
    | error errno =>
        refine .inr ⟨.system (.ofErrno errno [store.path.text]), ?_⟩
        simp [present, nul, probed]
    | ok entry =>
        cases entry with
        | none => exact .inl ⟨_, .missing nul probed⟩
        | some entry =>
            have there := (Tree.probe_eq_some_iff tree store.path.text entry).mp probed
            cases entry with
            | folder => exact .inl ⟨_, .folder nul there⟩
            | file bytes => exact .inl ⟨_, .content nul there⟩
            | link target => exact absurd there (Tree.status_ne_link tree _ target)

theorem load_cases (store : Store) (environment : Environment) (tree : Tree) :
    (∃ found offered log, Finds tree store.path.text found ∧ Offers found offered ∧
      store.load environment tree =
        ⟨⟨store.path, environment.override offered⟩, .ok (), tree, log⟩) ∨
    ∃ failure log, store.load environment tree =
      ⟨⟨store.path, .default⟩, .error failure, tree, log⟩ := by
  have loads {found : Found} {offered : Settings} (finds : Finds tree store.path.text found)
      (offers : Offers found offered) :
      ∃ found offered log, Finds tree store.path.text found ∧ Offers found offered ∧
        store.load environment tree =
          ⟨⟨store.path, environment.override offered⟩, .ok (), tree, log⟩ := by
    obtain ⟨log, loaded⟩ := load_of_offers finds offers environment
    exact ⟨found, offered, log, finds, offers, loaded⟩
  rcases finds_or_refused store tree with ⟨found, finds⟩ | ⟨failure, refused⟩
  · cases found with
    | missing => exact .inl (loads finds .missing)
    | folder => exact .inl (loads finds .folder)
    | content bytes =>
        rcases offers_or_refuses bytes with ⟨offered, offers⟩ | ⟨failure, refuses⟩
        · exact .inl (loads finds offers)
        · exact .inr ⟨failure, load_of_refuses finds refuses environment⟩
  · refine .inr ⟨failure, [], ?_⟩
    unfold load
    rw [refused]

theorem exists_offers_of_load {store : Store} {environment : Environment}
    (loads : (store.load environment tree).answer = .ok ()) :
    ∃ found offered, Finds tree store.path.text found ∧ Offers found offered ∧
      environment.Overrides offered (store.load environment tree).store.settings := by
  rcases load_cases store environment tree with
    ⟨found, offered, log, finds, offers, loaded⟩ | ⟨failure, log, loaded⟩
  · refine ⟨found, offered, finds, offers, ?_⟩
    rw [loaded]
    exact environment.overrides_override offered
  · rw [loaded] at loads
    nomatch loads

theorem zero_le_delay_load (store : Store) (environment : Environment) (tree : Tree) :
    Number.zero ≤ (store.load environment tree).store.settings.watch.delay := by
  rcases load_cases store environment tree with
    ⟨found, offered, log, -, offers, loaded⟩ | ⟨failure, log, loaded⟩
  · rw [loaded]
    exact (environment.overrides_override offered).delayOver.zero_le (zero_le_of_offers offers)
  · rw [loaded]
    exact zero_le_of_offers .missing

/-- Every delay in force after a loading can be used.  Whatever has befallen a store, the delay is
at least zero, a debouncer takes it, and its windows do not close before they open.  Where the
loading succeeds, the delay is that of the environment over what the file spells out in whichever
way, or over the default.  A watcher with that delay can be made on any files; it resolves the path
of its command file, which some versions of the library refuse on a circle of links. -/
theorem load_delay (path : Path) (origin : Tree) (earlier : List Order)
    (environment : Environment) :
    let tree := (obeyAll (new path, origin) earlier).2
    let change := loadAfter (new path, origin) earlier environment
    let watch := change.store.settings.watch
    (change.answer = .ok () →
      ∃ found offered, Finds tree path.text found ∧ Offers found offered ∧
        environment.DelayOver offered.watch.delay watch.delay ∧
        (offered.watch.delay = WatchSettings.default.delay ∨
          Spelled found offered.watch.delay ∧ Number.zero ≤ offered.watch.delay)) ∧
    Number.zero ≤ watch.delay ∧ watch.delay ≠ .nan ∧
    (∃ span, Debouncer.delayFor none watch.delay = .ok span ∧
      ∀ now due, span.after now = some due → now ≤ due) ∧
    ('\x00' ∉ watch.file.text → ∀ dispatcher later,
      ∃ watcher, Watcher.ofSettings watch dispatcher later = .ok watcher ∧
        watcher.debouncer.delay = .ofNumber watch.delay) := by
  have kept : (obeyAll (new path, origin) earlier).1.path = path := path_obeyAll _ earlier
  unfold loadAfter
  -- All that the history leaves to the loading is the path and the files.
  generalize obeyAll (new path, origin) earlier = current at kept ⊢
  obtain ⟨store, tree⟩ := current
  subst kept
  intro tree change watch
  have least : Number.zero ≤ watch.delay := zero_le_delay_load store environment tree
  refine ⟨fun loads => ?_, least, Number.ne_nan_of_zero_le least,
    ⟨_, Debouncer.delayFor_of_zero_le least, fun _ _ => Delay.le_of_after least⟩,
    fun named => Watcher.ofSettings_of_zero_le least named⟩
  obtain ⟨found, offered, finds, offers, overrides⟩ := exists_offers_of_load loads
  exact ⟨found, offered, finds, offers, overrides.delayOver, delay_of_offers offers⟩

/-- The delay of a store is set to what is no number.  Then its file spells out none, one with its
digits grouped, one by a flag, and one below zero, and the environment asks for nothing, for what
is not read, for no number, and for an endless delay. -/
theorem load_delay_nan :
    let path := Path.parse (Text.ofString "c.toml")
    let holding (entry : String) : Tree :=
      ⟨[([Text.ofString "c.toml"],
        .file (Utf8.encode (Text.ofString s!"[watch]\ndelay = {entry}\n")))]⟩
    let asking (asked : String) : Environment :=
      { Environment.empty with delay := Text.ofString asked }
    let earlier : List Order := [.assign ⟨{ WatchSettings.default with delay := .nan }, false⟩]
    let delay (entry asked : String) : Number :=
      (loadAfter (new path, holding entry) earlier (asking asked)).store.settings.watch.delay
    delay "nan" "" = WatchSettings.default.delay ∧ delay "\"1_0\"" "" = .ofInt 10 ∧
      delay "true" "none" = .ofInt 1 ∧ delay "true" " -NaN" = .zero ∧
      delay "-1" "inf" = .infinite false ∧
      ∃ span, Debouncer.delayFor none (delay "true" " -NaN") = .ok span := by
  intro path holding asking earlier delay
  obtain ⟨-, -, -, ⟨span, taken, -⟩, -⟩ := load_delay path (holding "true") earlier (asking " -NaN")
  exact ⟨by decide +kernel, by decide +kernel, by decide +kernel, by decide +kernel,
    by decide +kernel, span, taken⟩

end Store

end CommandFile
