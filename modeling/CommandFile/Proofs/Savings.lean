import CommandFile.Proofs.Layers
import CommandFile.Proofs.Rooms
import CommandFile.Proofs.Values

/-!
# Saved settings

What is saved is read back line by line into the table that it was written from, and the table
gives the settings.  Nothing of what the file held before is left.
-/

namespace CommandFile

namespace Toml

/-! ## Line breaks -/

theorem unifyBreaks_of_free {text : Text} (free : '\r' ∉ text) : unifyBreaks text = text := by
  induction text with
  | nil => rfl
  | cons character text ih =>
      have other : character ≠ '\r' := fun same => free (same ▸ List.mem_cons_self)
      have freeToo : '\r' ∉ text := fun inside => free (List.mem_cons_of_mem _ inside)
      rw [unifyBreaks.eq_def]
      split
      · next none => nomatch none
      · next same => exact absurd (List.cons.inj same).1 other
      · next same =>
          obtain ⟨rfl, rfl⟩ := List.cons.inj same
          rw [ih freeToo]

theorem free_escapeChar (character : Char) : '\r' ∉ escapeChar character := by
  have small : ∀ code < 0x80, '\r' ∉ Text.hexDigits 4 code := by decide
  unfold escapeChar
  split
  · next letter escaped =>
      revert escaped
      unfold escapeLetter?
      split <;> rintro ⟨⟩ <;> decide
  · next unescaped =>
      split
      · next control =>
          have less : character.toNat < 0x80 := by
            simp only [isControl, Bool.or_eq_true, Bool.and_eq_true, decide_eq_true_eq] at control
            omega
          simp [small _ less]
      · rw [List.mem_singleton]
        rintro rfl
        exact absurd unescaped (by decide)

@[simp] theorem free_writeString (text : Text) : '\r' ∉ writeString text := by
  simp [writeString, free_escapeChar]

theorem free_writeFlag (flag : Bool) : '\r' ∉ writeFlag flag := by
  cases flag <;> decide

theorem free_of_allDigits {digits : Text} (all : Numeral.AllDigits digits) : '\r' ∉ digits :=
  fun inside => nomatch all _ inside

theorem free_numberText {number : Number} (finite : number.IsFinite) : '\r' ∉ number.text := by
  match number, finite with
  | .finite negative mantissa exponent, fits =>
      obtain ⟨parts, proper, written, -⟩ := Numeral.exists_parts fits negative
      have pointed : '\r' ∉ parts.pointed := by
        unfold Numeral.Parts.pointed
        split
        · exact List.not_mem_nil
        · simp [free_of_allDigits proper.fraction]
      have powered : '\r' ∉ parts.powered := by
        unfold Numeral.Parts.powered
        cases parts.power with
        | none => exact List.not_mem_nil
        | some power =>
            obtain ⟨digits, -, all, -, same⟩ := Numeral.exists_exponentText power
            rw [Option.elim_some, same]
            split <;> simp [free_of_allDigits all]
      rw [written]
      cases negative <;>
        simp [Numeral.signed, Numeral.Parts.text, pointed, powered,
          free_of_allDigits proper.whole]

end Toml

namespace Store

open Toml (writeString writeFlag writePair)

variable {settings : Settings}

/-! ## Reading what was saved -/

def watchTable (watch : WatchSettings) : Table :=
  [(Text.ofString "file", .string watch.file.text), (Text.ofString "delay", .float watch.delay),
    (Text.ofString "call_now", .boolean watch.callNow),
    (Text.ofString "encoding", .string watch.encoding)]

def savedTable (settings : Settings) : Table :=
  [(Text.ofString "debug", .boolean settings.debug),
    (Text.ofString "watch", .table (watchTable settings.watch))]

def watchDocument (debug : Bool) (entries : Table) : Toml.Document where
  root := [(Text.ofString "debug", .boolean debug), (Text.ofString "watch", .table entries)]
  marks := [.opened [Text.ofString "watch"]]
  pending := []
  header := [Text.ofString "watch"]

theorem addPair_watchDocument (debug : Bool) {entries : Table} {key : Text} {value : Value}
    (free : entries.get? key = none) (plain : Toml.isClosedForm value = false) :
    (watchDocument debug entries).addPair [key] value =
      some (watchDocument debug (entries ++ [(key, value)])) := by
  have added : Toml.addEntry key value entries = some (entries ++ [(key, value)]) := by
    rw [Toml.addEntry, free]
  have found : (watchDocument debug entries).root.get? (Text.ofString "watch") =
      some (.table entries) := rfl
  have changed : Toml.changeAt true (Toml.addEntry key value) [Text.ofString "watch"]
      (watchDocument debug entries).root =
        some (watchDocument debug (entries ++ [(key, value)])).root := by
    rw [Toml.changeAt, found]
    dsimp only
    rw [Toml.changeAt, added]
    rfl
  have unclosed :
      Toml.isClosed (watchDocument debug entries).marks [Text.ofString "watch"] = false :=
    rfl
  have header : (watchDocument debug entries).header = [Text.ofString "watch"] := rfl
  simp [Toml.Document.addPair, Toml.Document.beginnings, header, unclosed, changed, plain]
  rfl

theorem lines_watchDocument {debug : Bool} {entries : Table} {key : String} {written : Text}
    {found : Value} (bare : key.toList.all Toml.isBareChar = true) (some : key.toList ≠ [])
    (reads : Toml.Reads written found) (free : entries.get? key.toList = none)
    (plain : Toml.isClosedForm found = false) (limit : Nat) (rest : Text) :
    (watchDocument debug entries).lines (limit + 1) (writePair key written ++ rest) =
      (watchDocument debug (entries ++ [(key.toList, found)])).lines limit rest :=
  Toml.lines_pair bare some reads (addPair_watchDocument debug free plain) limit rest

theorem lines_render (finite : settings.watch.delay.IsFinite) (limit : Nat) :
    Toml.Document.empty.lines (limit + 8) (render settings) =
      .ok (watchDocument settings.debug (watchTable settings.watch)) := by
  let first : Toml.Document := ⟨[(Text.ofString "debug", .boolean settings.debug)], [], [], []⟩
  have added :
      Toml.Document.empty.addPair [Text.ofString "debug"] (.boolean settings.debug) = some first :=
    rfl
  have opened : first.openTable [Text.ofString "watch"] =
      some (watchDocument settings.debug []) := rfl
  have number := Toml.reads_number finite
  rw [render, ← List.append_nil (writePair "encoding" _)]
  simp only [List.append_assoc]
  refine (Toml.lines_pair (by decide) (by decide) (Toml.reads_flag _) added _ _).trans ?_
  refine (Toml.lines_blank _ _ _).trans ?_
  refine (Toml.lines_header (by decide) (by decide) opened _ _).trans ?_
  refine (lines_watchDocument (by decide) (by decide) (Toml.reads_string _) rfl rfl _ _).trans ?_
  refine (lines_watchDocument (by decide) (by decide) number rfl rfl _ _).trans ?_
  refine (lines_watchDocument (by decide) (by decide) (Toml.reads_flag _) rfl rfl _ _).trans ?_
  exact lines_watchDocument (by decide) (by decide) (Toml.reads_string _) rfl rfl _ _

theorem read_render (finite : settings.watch.delay.IsFinite) :
    Toml.read (render settings) = .ok (savedTable settings) := by
  have free : '\r' ∉ render settings := by
    have mark : '\r' ∉ Text.ofString " = " := by decide
    have header : '\r' ∉ Text.ofString "\n[watch]\n" := by decide
    simp [render, writePair, Toml.free_writeString, Toml.free_writeFlag,
      Toml.free_numberText finite, mark, header]
  obtain ⟨extra, enough⟩ : ∃ extra, (render settings).length + 1 = extra + 8 := by
    have header : (Text.ofString "\n[watch]\n").length = 9 := rfl
    refine ⟨(render settings).length - 7, ?_⟩
    simp only [render, List.length_append, header]
    omega
  rw [Toml.read, Toml.unifyBreaks_of_free free, enough, lines_render finite]
  rfl

theorem given_watchTable {watch : WatchSettings} (normal : watch.file.Normal)
    (least : watch.delay.isAtLeastZero = true) : WatchSettings.Given (watchTable watch) watch where
  file := congrArg Except.ok normal.parse_text
  delay := if_pos least
  callNow := rfl
  encoding := rfl

theorem gives_render (normal : settings.watch.file.Normal)
    (finite : settings.watch.delay.IsFinite)
    (least : settings.watch.delay.isAtLeastZero = true) : Gives (render settings) settings := by
  have watches : WatchIn (savedTable settings) settings.watch := given_watchTable normal least
  have debugs : DebugIn (savedTable settings) settings.debug := rfl
  exact .valid (read_render finite) watches debugs

/-! ## Saving -/

variable {store : Store} {tree : Tree}

theorem finds_save {answer : Text} (saves : (store.save tree).answer = .ok answer) :
    answer = store.path.text ∧ Finds (store.save tree).tree store.path.text
      (.content (Utf8.encode (render store.settings))) := by
  unfold save at saves ⊢
  dsimp only at saves ⊢
  split at saves
  · nomatch saves
  · next named =>
      rw [if_neg named]
      split at saves
      · nomatch saves
      · next made =>
          split at saves
          · nomatch saves
          · next after written =>
              exact ⟨(Except.ok.inj saves).symm,
                .content (by simpa using named) (Tree.status_overwrite written)⟩

theorem save_of_hasRoom (normal : store.path.Normal) (named : '\x00' ∉ store.path.text)
    (room : tree.HasRoom store.path) : (store.save tree).answer = .ok store.path.text := by
  obtain ⟨unrefused, placed⟩ := room.ensureFolders normal
  have plain : ¬ store.path.text.contains '\x00' := by simpa using named
  unfold save
  dsimp only
  rw [if_neg plain, unrefused]
  dsimp only
  rcases (tree.ensureFolders store.path.parent).tree.changeFile_cases store.path.text
      fun _ => Utf8.encode (render store.settings) with
    ⟨location, content, -, -, -, written⟩ | ⟨stuck, -⟩
  · rw [Tree.overwrite, written]
  · exact absurd stuck placed

/-- Loading undoes saving: settings that were saved are found again by a store that knows nothing
but the path, whatever the file held before.  Saving succeeds wherever there is room for the
file. -/
theorem load_save (store : Store) (normal : store.settings.watch.file.Normal)
    (finite : store.settings.watch.delay.IsFinite)
    (least : store.settings.watch.delay.isAtLeastZero = true) (tree : Tree) :
    let saved := store.save tree
    let loaded := (new store.path).load .empty saved.tree
    (∀ answer, saved.answer = .ok answer → loaded.answer = .ok () ∧ loaded.store = store) ∧
    (store.path.Normal → '\x00' ∉ store.path.text → tree.HasRoom store.path →
      saved.answer = .ok store.path.text) := by
  refine ⟨fun answer saves => ?_, save_of_hasRoom⟩
  have offers : Offers (.content (Utf8.encode (render store.settings))) store.settings :=
    .content (gives_render normal finite least)
  have finds : Finds (store.save tree).tree (new store.path).path.text _ := (finds_save saves).2
  obtain ⟨log, loaded⟩ := load_of_offers finds offers .empty
  rw [loaded]
  exact ⟨rfl, rfl⟩

/-- Quotes, backslashes, controls and line breaks are written over bytes that are no text, and
found again. -/
theorem load_save_escaped :
    let watch : WatchSettings := {
      file := Path.parse (Text.ofString "a \"b\\\\c\"\r/\x07.txt")
      delay := .finite false 7205759403792794 (-56)
      callNow := false
      encoding := Text.ofString "\\u0041\x00\t\x7f\r\n\"\"\"\u00e9\u2028" }
    let store : Store := ⟨Path.parse (Text.ofString "config.toml"), ⟨watch, true⟩⟩
    let tree : Tree := ⟨[([Text.ofString "config.toml"], .file [0xFF])]⟩
    let saved := store.save tree
    let loaded := (new store.path).load .empty saved.tree
    saved.answer = .ok store.path.text ∧ loaded.answer = .ok () ∧ loaded.store = store := by
  intro watch store tree saved loaded
  have finite : watch.delay.IsFinite := ⟨by decide, by decide, by decide, by decide⟩
  obtain ⟨restores, saves⟩ := load_save store (Path.normal_parse _) finite (by decide) tree
  have room : tree.HasRoom store.path :=
    .file (by decide +kernel : tree.status store.path.text = .ok (.file [0xFF]))
  have answer : saved.answer = .ok store.path.text :=
    saves (Path.normal_parse _) (by decide +kernel) room
  exact ⟨answer, restores _ answer⟩

end Store

end CommandFile
