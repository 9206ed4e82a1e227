import CommandFile.Proofs.Encodings
import CommandFile.Proofs.Remainders
import CommandFile.Settings.Store

/-!
# Layers

A settings file offers its settings as a whole or not at all, and what it offers depends on
nothing but what is found at its path.  Then the environment overrides one setting at a time.
-/

namespace CommandFile

namespace Record

variable {α β : Type}

def Reads (table : Table) (name : String) (read : Value → Except Problem α) (default value : α) :
    Prop :=
  match table.get? name.toList with
  | none => value = default
  | some given => read given = .ok value

theorem fieldOr_eq_ok_iff (table : Table) (name : String) (read : Value → Except Problem α)
    (default value : α) :
    fieldOr table name read default = .ok value ↔ Reads table name read default value := by
  unfold fieldOr Reads
  cases table.get? name.toList with
  | none => simp [eq_comm]
  | some given => cases result : read given <;> simp [Except.mapError, result]

theorem map_eq_ok_iff (argument : Except (List Issue) α) (function : α → β) (result : β) :
    argument.map function = .ok result ↔
      ∃ value, argument = .ok value ∧ function value = result := by
  cases argument <;> simp [Except.map]

theorem both_eq_ok_iff (function : Except (List Issue) (α → β)) (argument : Except (List Issue) α)
    (result : β) :
    both function argument = .ok result ↔
      ∃ applied value, function = .ok applied ∧ argument = .ok value ∧ applied value = result := by
  cases function <;> cases argument <;> simp [both]

end Record

namespace WatchSettings

structure Given (table : Table) (watch : WatchSettings) : Prop where
  file : Record.Reads table "file" Record.path default.file watch.file
  delay : Record.Reads table "delay" Record.duration default.delay watch.delay
  callNow : Record.Reads table "call_now" Record.flag default.callNow watch.callNow
  encoding : Record.Reads table "encoding" Record.string default.encoding watch.encoding

theorem ofTable_eq_ok_iff (table : Table) (watch : WatchSettings) :
    ofTable table = .ok watch ↔ Given table watch := by
  obtain ⟨file, delay, callNow, encoding⟩ := watch
  simp only [ofTable, Record.both_eq_ok_iff, Record.map_eq_ok_iff, Record.fieldOr_eq_ok_iff]
  constructor
  · rintro ⟨_, _, ⟨_, _, ⟨_, _, ⟨_, readFile, rfl⟩, readDelay, rfl⟩, readCallNow, rfl⟩,
      readEncoding, same⟩
    obtain ⟨rfl, rfl, rfl, rfl⟩ := WatchSettings.mk.inj same
    exact ⟨readFile, readDelay, readCallNow, readEncoding⟩
  · rintro ⟨readFile, readDelay, readCallNow, readEncoding⟩
    exact ⟨_, _, ⟨_, _, ⟨_, _, ⟨_, readFile, rfl⟩, readDelay, rfl⟩, readCallNow, rfl⟩, readEncoding,
      rfl⟩

end WatchSettings

namespace Environment

/-- Each setting in force is that of a variable that is set, or else the one below. -/
structure Overrides (environment : Environment) (below settings : Settings) : Prop where
  file : settings.watch.file =
    if environment.watchFile = [] then below.watch.file else .parse environment.watchFile
  delaySet : ∀ number, environment.delay ≠ [] →
    Numeral.readWritten environment.delay = some number → settings.watch.delay = number.clamp
  delayKept : environment.delay = [] ∨ Numeral.readWritten environment.delay = none →
    settings.watch.delay = below.watch.delay
  callNow : settings.watch.callNow =
    if environment.callNow = [] then below.watch.callNow else saysYes environment.callNow
  encoding : settings.watch.encoding = below.watch.encoding
  debug : settings.debug =
    if environment.debug = [] then below.debug else saysYes environment.debug

theorem overrides_override (environment : Environment) (below : Settings) :
    environment.Overrides below (environment.override below) := by
  refine ⟨rfl, fun number set read => ?_, fun kept => ?_, rfl, rfl, rfl⟩
  · simp only [override, unlessEmpty, if_neg set, delayIn, read]
  · simp only [override, unlessEmpty]
    split
    · rfl
    · next set => rw [delayIn, kept.resolve_left set]

end Environment

namespace Store

variable {tree : Tree} {path text : Text} {bytes : Bytes} {offered : Settings}

/-! ## What a file offers -/

def WatchIn (table : Table) (watch : WatchSettings) : Prop :=
  match table.get? (Text.ofString "watch") with
  | some (.table entries) => WatchSettings.Given entries watch
  | _ => watch = .default

def DebugIn (table : Table) (debug : Bool) : Prop :=
  match table.get? (Text.ofString "debug") with
  | some (.boolean value) => debug = value
  | _ => debug = false

/-- A text as a whole gives settings, or leaves it at the defaults: when it is malformed, and
when a field of the watch has a value that is none. -/
inductive Gives (text : Text) : Settings → Prop
  | malformed (read : Toml.read text = .error .malformed) : Gives text .default
  | invalid {table : Table} (read : Toml.read text = .ok table)
      (none : ∀ watch, ¬ WatchIn table watch) : Gives text .default
  | valid {table : Table} {watch : WatchSettings} {debug : Bool}
      (read : Toml.read text = .ok table) (watches : WatchIn table watch)
      (debugs : DebugIn table debug) : Gives text ⟨watch, debug⟩

inductive Found
  | missing
  | folder
  | content (bytes : Bytes)

inductive Finds (tree : Tree) (path : Text) : Found → Prop
  | unnamed (nul : '\x00' ∈ path) : Finds tree path .missing
  | missing (named : '\x00' ∉ path) (nothing : tree.probe path = .ok none) :
      Finds tree path .missing
  | folder (named : '\x00' ∉ path) (found : tree.status path = .ok .folder) :
      Finds tree path .folder
  | content {bytes : Bytes} (named : '\x00' ∉ path)
      (found : tree.status path = .ok (.file bytes)) : Finds tree path (.content bytes)

inductive Offers : Found → Settings → Prop
  | missing : Offers .missing .default
  | folder : Offers .folder .default
  | content {text : Text} {settings : Settings} (gives : Gives text settings) :
      Offers (.content (Utf8.encode text)) settings

inductive Refuses : Bytes → Failure → Prop
  | undecodable {bytes : Bytes} {refusal : Utf8.Refusal}
      (decoded : Utf8.decode bytes = .error refusal) : Refuses bytes (.undecodable refusal)
  | tooManyDigits {text : Text} {count : Nat}
      (read : Toml.read text = .error (.tooManyDigits count)) :
      Refuses (Utf8.encode text) (.tooManyDigits Toml.greatestWidth count)

theorem debugIn_eq_iff (path : Text) (table : Table) (debug : Bool) :
    (debugIn path table).1 = debug ↔ DebugIn table debug := by
  unfold DebugIn debugIn
  cases table.get? (Text.ofString "debug") with
  | none => exact eq_comm
  | some value => cases value <;> exact eq_comm

def watchOf (table : Table) : Except (List Issue) WatchSettings :=
  match table.get? (Text.ofString "watch") with
  | some (.table entries) => WatchSettings.ofTable entries
  | _ => .ok .default

theorem watchOf_eq_ok_iff (table : Table) (watch : WatchSettings) :
    watchOf table = .ok watch ↔ WatchIn table watch := by
  unfold watchOf WatchIn
  cases table.get? (Text.ofString "watch") with
  | none => simp [eq_comm]
  | some value =>
      cases value with
      | table entries => exact WatchSettings.ofTable_eq_ok_iff entries watch
      | _ => simp [eq_comm]

theorem layerOf_eq (path : Text) (table : Table) :
    layerOf path table =
      match watchOf table with
      | .error _ => unusable s!"Invalid values in configuration file ({String.ofList path})"
      | .ok watch => ⟨⟨watch, (debugIn path table).1⟩, (debugIn path table).2⟩ := rfl

theorem layerOfText_of_gives (path : Text) (gives : Gives text offered) :
    ∃ log, layerOfText path text = .ok ⟨offered, log⟩ := by
  unfold layerOfText
  cases gives with
  | malformed read =>
      rw [read]
      exact ⟨_, rfl⟩
  | @invalid table read none =>
      rw [read]
      dsimp only
      rw [layerOf_eq]
      cases watched : watchOf table with
      | error issues => exact ⟨_, rfl⟩
      | ok watch => exact absurd ((watchOf_eq_ok_iff table watch).mp watched) (none watch)
  | @valid table watch debug read watches debugs =>
      rw [read]
      dsimp only
      rw [layerOf_eq, (watchOf_eq_ok_iff table watch).mpr watches,
        (debugIn_eq_iff path table debug).mpr debugs]
      exact ⟨_, rfl⟩

theorem gives_or_tooManyDigits (text : Text) :
    (∃ offered, Gives text offered) ∨
      ∃ count, Toml.read text = .error (.tooManyDigits count) := by
  cases read : Toml.read text with
  | error refusal =>
      cases refusal with
      | malformed => exact .inl ⟨_, .malformed read⟩
      | tooManyDigits count => exact .inr ⟨count, rfl⟩
  | ok table =>
      refine .inl ?_
      by_cases valid : ∃ watch, WatchIn table watch
      · obtain ⟨watch, watches⟩ := valid
        exact ⟨_, .valid read watches ((debugIn_eq_iff [] table _).mp rfl)⟩
      · exact ⟨_, .invalid read (not_exists.mp valid)⟩

theorem not_tooManyDigits_of_gives (gives : Gives text offered) (count : Nat) :
    Toml.read text ≠ .error (.tooManyDigits count) := by
  intro refused
  cases gives with
  | malformed read => rw [read] at refused; nomatch refused
  | invalid read => rw [read] at refused; nomatch refused
  | valid read => rw [read] at refused; nomatch refused

theorem Offers.unique {found : Found} {other : Settings} (offers : Offers found offered)
    (others : Offers found other) : other = offered := by
  cases offers with
  | missing => cases others; rfl
  | folder => cases others; rfl
  | @content text settings gives =>
      generalize encoded : Utf8.encode text = bytes at others
      cases others with
      | @content otherText _ otherGives =>
          obtain rfl : text = otherText := Utf8.encode_injective encoded
          obtain ⟨_, layered⟩ := layerOfText_of_gives [] gives
          obtain ⟨_, otherLayered⟩ := layerOfText_of_gives [] otherGives
          rw [layered] at otherLayered
          exact (Layer.mk.inj (Except.ok.inj otherLayered)).1.symm

/-! ## Loading -/

theorem present_of_finds {store : Store} {found : Found}
    (finds : Finds tree store.path.text found) :
    store.present tree = .ok (match found with | .missing => false | _ => true) := by
  unfold present
  cases finds with
  | unnamed nul => simp [nul]
  | missing named nothing => simp [nothing]
  | folder named found => simp [named, Tree.probe, found]
  | content named found => simp [named, Tree.probe, found]

theorem contentAt_of_finds {found : Found} (finds : Finds tree path found) :
    match found with
    | .missing => True
    | .folder => tree.contentAt path = .error .isFolder
    | .content bytes => tree.contentAt path = .ok bytes := by
  cases finds with
  | unnamed => trivial
  | missing => trivial
  | folder _ found =>
      rw [Tree.contentAt, found]
      rfl
  | content _ found =>
      rw [Tree.contentAt, found]
      rfl

theorem load_of_offers {store : Store} {found : Found} (finds : Finds tree store.path.text found)
    (offers : Offers found offered) (environment : Environment) :
    ∃ log, store.load environment tree =
      ⟨⟨store.path, environment.override offered⟩, .ok (), tree, log⟩ := by
  have present := present_of_finds finds
  have content := contentAt_of_finds finds
  unfold load
  rw [present]
  cases offers with
  | missing => exact ⟨_, rfl⟩
  | folder =>
      simp only [layer, content]
      exact ⟨_, rfl⟩
  | @content text settings gives =>
      obtain ⟨log, layered⟩ := layerOfText_of_gives store.path.text gives
      simp only [layer, content, Utf8.decode_encode, layered]
      exact ⟨_, rfl⟩

theorem load_of_refuses {store : Store} {failure : Failure}
    (finds : Finds tree store.path.text (.content bytes)) (refuses : Refuses bytes failure)
    (environment : Environment) :
    ∃ log, store.load environment tree = ⟨⟨store.path, .default⟩, .error failure, tree, log⟩ := by
  have present := present_of_finds finds
  have content := contentAt_of_finds finds
  unfold load
  rw [present]
  cases refuses with
  | undecodable decoded =>
      simp only [layer, content, decoded]
      exact ⟨_, rfl⟩
  | @tooManyDigits text count read =>
      simp only [layer, content, Utf8.decode_encode, layerOfText, read]
      exact ⟨_, rfl⟩

/-! ## Histories -/

inductive Order
  | load (environment : Environment)
  | save
  | assign (settings : Settings)
  | put (tree : Tree)

def obey (state : Store × Tree) : Order → Store × Tree
  | .load environment =>
      ((state.1.load environment state.2).store, (state.1.load environment state.2).tree)
  | .save => ((state.1.save state.2).store, (state.1.save state.2).tree)
  | .assign settings => (⟨state.1.path, settings⟩, state.2)
  | .put tree => (state.1, tree)

def obeyAll (start : Store × Tree) (orders : List Order) : Store × Tree := orders.foldl obey start

def loadAfter (start : Store × Tree) (orders : List Order) (environment : Environment) :
    Change Unit :=
  (obeyAll start orders).1.load environment (obeyAll start orders).2

theorem path_load (store : Store) (environment : Environment) (tree : Tree) :
    (store.load environment tree).store.path = store.path := by
  unfold load
  dsimp only
  split
  · rfl
  · rfl
  · split <;> rfl

theorem store_save (store : Store) (tree : Tree) : (store.save tree).store = store := by
  unfold save
  dsimp only
  split
  · rfl
  · split
    · rfl
    · split <;> rfl

theorem path_obeyAll (start : Store × Tree) (orders : List Order) :
    (obeyAll start orders).1.path = start.1.path := by
  induction orders generalizing start with
  | nil => rfl
  | cons order orders ih =>
      refine (ih _).trans ?_
      cases order with
      | load environment => exact path_load start.1 environment start.2
      | save => exact congrArg Store.path (store_save start.1 start.2)
      | assign settings => rfl
      | put tree => rfl

def Overlong (found : Found) (count : Nat) : Prop :=
  ∃ text, found = .content (Utf8.encode text) ∧ Toml.read text = .error (.tooManyDigits count)

theorem not_overlong_of_offers {found : Found} (offers : Offers found offered) (count : Nat) :
    ¬ Overlong found count := by
  rintro ⟨text, same, read⟩
  cases offers with
  | missing => nomatch same
  | folder => nomatch same
  | content gives =>
      obtain rfl := Utf8.encode_injective (Found.content.inj same)
      exact not_tooManyDigits_of_gives gives count read

def Textual (found : Found) : Prop :=
  ∀ bytes, found = .content bytes → ∃ text, Utf8.encode text = bytes

theorem offers_or_overlong {found : Found} (textual : Textual found) :
    (∃ offered, Offers found offered) ∨ ∃ count, Overlong found count := by
  cases found with
  | missing => exact .inl ⟨_, .missing⟩
  | folder => exact .inl ⟨_, .folder⟩
  | content bytes =>
      obtain ⟨text, rfl⟩ := textual bytes rfl
      rcases gives_or_tooManyDigits text with ⟨offered, gives⟩ | ⟨count, read⟩
      · exact .inl ⟨offered, .content gives⟩
      · exact .inr ⟨count, text, rfl, read⟩

/-- Loading is layered.  Whatever has befallen a store, the settings in force are those that the
file offers as a whole, overridden by the environment one by one; they depend on nothing else.
Only a text with an integer of too many digits is not loaded, and leaves the bare defaults. -/
theorem load_layers (path : Path) (origin : Tree) (earlier : List Order)
    (environment : Environment) {found : Found}
    (finds : Finds (obeyAll (new path, origin) earlier).2 path.text found)
    (textual : Textual found) :
    let change := loadAfter (new path, origin) earlier environment
    change.tree = (obeyAll (new path, origin) earlier).2 ∧
    ((∀ count, ¬ Overlong found count) →
      change.answer = .ok () ∧
        ∃ offered, Offers found offered ∧ (∀ other, Offers found other → other = offered) ∧
          environment.Overrides offered change.store.settings) ∧
    (∀ count, Overlong found count →
      change.answer = .error (.tooManyDigits Toml.greatestWidth count) ∧
        change.store.settings = .default) ∧
    ∀ (other : Store) (otherTree : Tree), other.path = path → Finds otherTree path.text found →
      (other.load environment otherTree).answer = change.answer ∧
        (other.load environment otherTree).store = change.store := by
  have kept : (obeyAll (new path, origin) earlier).1.path = path := path_obeyAll _ earlier
  unfold loadAfter
  -- All that the history leaves to the loading is the path.
  generalize obeyAll (new path, origin) earlier = current at finds kept ⊢
  obtain ⟨store, tree⟩ := current
  subst kept
  intro change
  rcases offers_or_overlong textual with ⟨offered, offers⟩ | ⟨count, text, rfl, read⟩
  · obtain ⟨log, loaded⟩ := load_of_offers finds offers environment
    have changed : change = _ := loaded
    rw [changed]
    refine ⟨rfl, fun _ => ⟨rfl, offered, offers, fun other => offers.unique, ?_⟩, ?_, ?_⟩
    · exact environment.overrides_override offered
    · exact fun count overlong => absurd overlong (not_overlong_of_offers offers count)
    · intro other otherTree samePath otherFinds
      obtain ⟨_, otherLoaded⟩ := load_of_offers (samePath ▸ otherFinds) offers environment
      rw [otherLoaded, samePath]
      exact ⟨rfl, rfl⟩
  · obtain ⟨log, loaded⟩ := load_of_refuses finds (.tooManyDigits read) environment
    have changed : change = _ := loaded
    rw [changed]
    refine ⟨rfl, fun short => absurd ⟨text, rfl, read⟩ (short count), ?_, ?_⟩
    · rintro other ⟨otherText, same, otherRead⟩
      obtain rfl := Utf8.encode_injective (Found.content.inj same)
      rw [read] at otherRead
      cases otherRead
      exact ⟨rfl, rfl⟩
    · intro other otherTree samePath otherFinds
      obtain ⟨_, otherLoaded⟩ :=
        load_of_refuses (samePath ▸ otherFinds) (.tooManyDigits read) environment
      rw [otherLoaded, samePath]
      exact ⟨rfl, rfl⟩

/-- A store is loaded, assigned and saved before its file is written anew, once with a debug flag
that is none, and once with an integer of too many digits. -/
theorem load_layers_rewritten :
    let path := Path.parse (Text.ofString "c.toml")
    let holding (text : Text) : Tree := ⟨[([Text.ofString "c.toml"], .file (Utf8.encode text))]⟩
    let environment := { Environment.empty with delay := Text.ofString "-3" }
    let assigned : Settings := ⟨{ WatchSettings.default with encoding := ['x'] }, true⟩
    let earlier (text : Text) : List Order :=
      [.load environment, .assign assigned, .save, .put (holding text)]
    let layered := Text.ofString "debug = 1\n[watch]\ncall_now = \"no\"\n"
    let overlong := Text.ofString "debug = true\nn = " ++ List.replicate 4301 '9'
    (loadAfter (new path, ⟨[]⟩) (earlier layered) environment).store.settings =
        ⟨{ WatchSettings.default with callNow := false, delay := .zero }, false⟩ ∧
      ((new path).load environment (holding layered)).store =
        (loadAfter (new path, ⟨[]⟩) (earlier layered) environment).store ∧
      (loadAfter (new path, ⟨[]⟩) (earlier overlong) environment).answer =
        .error (.tooManyDigits 4300 4301) := by
  intro path holding environment assigned earlier layered overlong
  have finds (text : Text) : Finds (holding text) path.text (.content (Utf8.encode text)) :=
    .content (by decide +kernel) rfl
  have textual (text : Text) : Textual (.content (Utf8.encode text)) := by
    rintro _ ⟨⟩
    exact ⟨text, rfl⟩
  have layers (text : Text) :=
    load_layers path ⟨[]⟩ (earlier text) environment (finds text) (textual text)
  have settings : (loadAfter (new path, ⟨[]⟩) (earlier layered) environment).store.settings =
      ⟨{ WatchSettings.default with callNow := false, delay := .zero }, false⟩ := by
    decide +kernel
  have read : Toml.read overlong = .error (.tooManyDigits 4301) := by
    have refused : (match Toml.read overlong with
        | .error refusal => some refusal
        | .ok _ => none) = some (.tooManyDigits 4301) := by
      decide +kernel
    split at refused
    · next other => exact other.trans (congrArg _ (Option.some.inj refused))
    · nomatch refused
  have same := (layers layered).2.2.2 (new path) (holding layered) rfl (finds layered)
  have stopped := (layers overlong).2.2.1 4301 ⟨overlong, rfl, read⟩
  exact ⟨settings, same.2, stopped.1⟩

/-! ## Contents -/

theorem offers_or_refuses (bytes : Bytes) :
    (∃ offered, Offers (.content bytes) offered) ∨ ∃ failure, Refuses bytes failure := by
  cases decoded : Utf8.decode bytes with
  | error refusal => exact .inr ⟨_, .undecodable decoded⟩
  | ok text =>
      obtain rfl := (Utf8.decode_eq_ok_iff_encode bytes text).mp decoded
      rcases gives_or_tooManyDigits text with ⟨offered, gives⟩ | ⟨count, read⟩
      · exact .inl ⟨_, .content gives⟩
      · exact .inr ⟨_, .tooManyDigits read⟩

theorem text_of_offers (offers : Offers (.content bytes) offered) :
    ∃ text, Utf8.encode text = bytes ∧ ∀ count, Toml.read text ≠ .error (.tooManyDigits count) := by
  cases offers with
  | @content text _ gives => exact ⟨text, rfl, not_tooManyDigits_of_gives gives⟩

theorem Refuses.tooManyDigits_of_encode {failure : Failure}
    (refuses : Refuses (Utf8.encode text) failure) :
    ∃ count, Toml.read text = .error (.tooManyDigits count) := by
  generalize encoded : Utf8.encode text = bytes at refuses
  cases refuses with
  | undecodable decoded =>
      rw [(Utf8.decode_eq_ok_iff_encode bytes text).mpr encoded] at decoded
      nomatch decoded
  | tooManyDigits read =>
      obtain rfl := Utf8.encode_injective encoded
      exact ⟨_, read⟩

/-- A content is loaded exactly when it is a text without an integer of too many digits, whatever
else is wrong with it, and then the environment is in force.  Every other content stops the
loading and leaves the bare defaults. -/
theorem load_content (store : Store) (finds : Finds tree store.path.text (.content bytes))
    (environment : Environment) :
    let change := store.load environment tree
    change.tree = tree ∧
    (change.answer = .ok () ↔
      ∃ text, Utf8.encode text = bytes ∧
        ∀ count, Toml.read text ≠ .error (.tooManyDigits count)) ∧
    (change.answer = .ok () →
      ∃ offered, Offers (.content bytes) offered ∧
        environment.Overrides offered change.store.settings) ∧
    (∀ failure, change.answer = .error failure →
      Refuses bytes failure ∧ change.store.settings = .default) ∧
    ∀ text, Utf8.encode text = bytes → text.countP Char.isDigit ≤ Toml.greatestWidth →
      change.answer = .ok () := by
  intro change
  rcases offers_or_refuses bytes with ⟨offered, offers⟩ | ⟨failure, refuses⟩
  · obtain ⟨log, loaded⟩ := load_of_offers finds offers environment
    have changed : change = _ := loaded
    rw [changed]
    exact ⟨rfl, ⟨fun _ => text_of_offers offers, fun _ => rfl⟩,
      fun _ => ⟨offered, offers, environment.overrides_override offered⟩, nofun, fun _ _ _ => rfl⟩
  · obtain ⟨log, loaded⟩ := load_of_refuses finds refuses environment
    have changed : change = _ := loaded
    rw [changed]
    refine ⟨rfl, ⟨nofun, ?_⟩, nofun, ?_, ?_⟩
    · rintro ⟨text, rfl, short⟩
      obtain ⟨count, read⟩ := refuses.tooManyDigits_of_encode
      exact absurd read (short count)
    · rintro _ ⟨⟩
      exact ⟨refuses, rfl⟩
    · rintro text rfl few
      -- The digits that are complained of are in the text, which has too few.
      obtain ⟨count, read⟩ := refuses.tooManyDigits_of_encode
      obtain ⟨long, digits⟩ := Toml.founded_read read
      exact absurd (Nat.lt_of_lt_of_le long digits) (Nat.not_lt.mpr few)

/-- A byte that starts nothing stops the loading, and the delay of the environment is not in
force. -/
theorem load_content_undecodable :
    let path := Path.parse (Text.ofString "config.toml")
    let tree : Tree := ⟨[([Text.ofString "config.toml"], .file [0xFF])]⟩
    let environment := { Environment.empty with delay := ['2'] }
    let change := (new path).load environment tree
    Finds tree path.text (.content [0xFF]) ∧
      change.answer = .error (.undecodable ⟨0, 0xFF, 1, .invalidStart⟩) ∧
      change.store.settings = .default ∧ environment.override .default ≠ .default := by
  intro path tree environment change
  have finds : Finds tree path.text (.content [0xFF]) :=
    .content (by decide +kernel) (by decide +kernel)
  have stopped : change.answer = .error (.undecodable ⟨0, 0xFF, 1, .invalidStart⟩) := by
    decide +kernel
  obtain ⟨-, -, -, left, -⟩ := load_content (new path) finds environment
  exact ⟨finds, stopped, (left _ stopped).2, by decide +kernel⟩

end Store

end CommandFile
