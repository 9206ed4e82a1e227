import CommandFile.Proofs.Nesting
import Mathlib.Data.List.Forall2
import Mathlib.Order.Minimal

/-!
# Endings

A terminator ends one statement of a kind at most, and the segment before it decides which one.  A
form whose statements lie on one line looks no further back than the last line of the segment.  So
the statements of a kind in a document are known as soon as it is known what a segment decides.
-/

namespace CommandFile

/-! ## What stands before a terminator -/

def lastRun (keep : Char → Bool) (text : Text) : Text := (text.reverse.takeWhile keep).reverse

def lastSegment (text : Text) : Text := lastRun (· ≠ terminator) text

def segmentBefore (text : Text) (position : Nat) : Text := lastSegment (text.take position)

def lastLine (text : Text) : Text := (text.reverse.takeWhile Form.isPathChar).reverse

def lineBefore (text : Text) (position : Nat) : Text := lastLine (text.take position)

section LastRun

variable {keep : Char → Bool}

theorem exists_append_lastRun (keep : Char → Bool) (text : Text) :
    ∃ head, text = head ++ lastRun keep text := by
  refine ⟨(text.reverse.dropWhile keep).reverse, ?_⟩
  rw [lastRun, ← List.reverse_append, List.takeWhile_append_dropWhile, List.reverse_reverse]

theorem keep_of_mem_lastRun {text : Text} {character : Char}
    (inside : character ∈ lastRun keep text) : keep character = true :=
  List.mem_takeWhile_imp (List.mem_reverse.mp inside)

theorem lastRun_append_of_kept (before : Text) {run : Text}
    (kept : ∀ character ∈ run, keep character = true) :
    lastRun keep (before ++ run) = lastRun keep before ++ run := by
  have backwards : ∀ character ∈ run.reverse, keep character = true :=
    fun character inside => kept character (List.mem_reverse.mp inside)
  rw [lastRun, List.reverse_append, List.takeWhile_append_of_pos backwards, List.reverse_append,
    List.reverse_reverse, lastRun]

theorem lastRun_behind {mark : Char} (stops : keep mark = false) (before rest : Text) :
    lastRun keep (before ++ mark :: rest) = lastRun keep rest := by
  rw [lastRun, List.reverse_append, List.reverse_cons, List.append_assoc, List.singleton_append,
    List.takeWhile_append, List.takeWhile_cons_of_neg (by simp [stops]), List.append_nil, lastRun]
  split
  · next all => rw [List.IsPrefix.eq_of_length (List.takeWhile_prefix _) all]
  · rfl

theorem lastRun_of_kept {text : Text} (kept : ∀ character ∈ text, keep character = true) :
    lastRun keep text = text :=
  lastRun_append_of_kept [] kept

end LastRun

theorem lastLine_eq_lastRun (text : Text) : lastLine text = lastRun Form.isPathChar text := rfl

theorem isPathChar_of_mem_lastLine {text : Text} {character : Char}
    (inside : character ∈ lastLine text) : Form.isPathChar character = true :=
  keep_of_mem_lastRun inside

theorem lastSegment_of_free {segment : Text} (free : terminator ∉ segment) :
    lastSegment segment = segment := by
  refine lastRun_of_kept fun character inside => ?_
  rw [decide_eq_true_iff]
  rintro rfl
  exact free inside

theorem lastLine_segmentBefore (text : Text) (position : Nat) :
    lastLine (segmentBefore text position) = lineBefore text position := by
  rw [segmentBefore, lineBefore, lastLine, lastLine, lastSegment, lastRun, List.reverse_reverse,
    List.takeWhile_takeWhile]
  congr 2
  funext character
  simp +contextual [Form.isPathChar]

section Segment

variable (segment rest : Text)

theorem segmentBefore_segment (free : terminator ∉ segment) :
    segmentBefore (segment ++ terminator :: rest) segment.length = segment := by
  rw [segmentBefore, List.take_left, lastSegment_of_free free]

theorem segmentBefore_behind (position : Nat) :
    segmentBefore (segment ++ terminator :: rest) (segment.length + 1 + position) =
      segmentBefore rest position := by
  have split : (segment ++ terminator :: rest).take (segment.length + 1 + position) =
      segment ++ terminator :: rest.take position := by
    rw [Nat.add_assoc, Nat.add_comm 1, List.take_length_add_append, List.take_succ_cons]
  rw [segmentBefore, split, lastSegment, lastRun_behind (by decide), segmentBefore, lastSegment]

theorem drop_behind (position : Nat) :
    (segment ++ terminator :: rest).drop (segment.length + 1 + position) = rest.drop position := by
  rw [Nat.add_assoc, Nat.add_comm 1, List.drop_length_add_append, List.drop_succ_cons]

variable {segment}

theorem getElem?_eq_terminator_iff (free : terminator ∉ segment) (position : Nat) :
    (segment ++ terminator :: rest)[position]? = some terminator ↔
      position = segment.length ∨
        ∃ later, rest[later]? = some terminator ∧ position = segment.length + 1 + later := by
  have behind (later : Nat) :
      (segment ++ terminator :: rest)[segment.length + 1 + later]? = rest[later]? := by
    rw [← List.head?_drop, drop_behind, List.head?_drop]
  constructor
  · intro found
    rcases Nat.lt_trichotomy position segment.length with before | here | after
    · rw [List.getElem?_append_left before] at found
      exact absurd (List.mem_of_getElem? found) free
    · exact .inl here
    · obtain ⟨later, rfl⟩ := Nat.exists_eq_add_of_le (Nat.succ_le_of_lt after)
      exact .inr ⟨later, (behind later).symm.trans found, rfl⟩
  · rintro (rfl | ⟨later, found, rfl⟩)
    · simp
    · rw [behind, found]

end Segment

/-! ## The first place in a text -/

theorem exists_shortest {α : Type} {holds : α → Prop} (some : ∃ item, holds item)
    (length : α → Nat) :
    ∃ item, holds item ∧ ∀ other, holds other → length item ≤ length other := by
  obtain ⟨item, here, minimal⟩ := exists_minimalFor_of_wellFoundedLT holds length some
  exact ⟨item, here, fun other there => (Nat.le_total _ _).elim id (minimal there)⟩

def FirstBehind (word text rest : Text) : Prop :=
  ∃ before, text = before ++ word ++ rest ∧
    ∀ earlier other, text = earlier ++ word ++ other → before.length ≤ earlier.length

namespace Form

variable {form : Form} {segment line inner : Text} {captures : List Capture}

/-- What a form reads in a text begins at the first keyword that it can read on from. -/
def ReadsFirst (form : Form) (line inner : Text) (captures : List Capture) : Prop :=
  form.read inner = some captures ∧ ∃ before, line = before ++ form.keyword ++ inner ∧
    ∀ earlier other, line = earlier ++ form.keyword ++ other → form.read other ≠ none →
      before.length ≤ earlier.length

def OneLine (form : Form) : Prop :=
  ∀ inner captures, form.read inner = some captures →
    ∀ character ∈ form.keyword ++ inner, isPathChar character = true

theorem ReadsFirst.unique {other : Text} {others : List Capture}
    (reads : form.ReadsFirst line inner captures) (readsToo : form.ReadsFirst line other others) :
    inner = other ∧ captures = others := by
  obtain ⟨read, before, whole, first⟩ := reads
  obtain ⟨readToo, beforeToo, wholeToo, firstToo⟩ := readsToo
  have same : before.length = beforeToo.length :=
    Nat.le_antisymm (first beforeToo other wholeToo (by simp [readToo]))
      (firstToo before inner whole (by simp [read]))
  rw [whole, List.append_assoc, List.append_assoc] at wholeToo
  obtain ⟨-, behind⟩ := List.append_inj wholeToo same
  obtain rfl := List.append_cancel_left behind
  exact ⟨rfl, Option.some.inj (read.symm.trans readToo)⟩

theorem Anchored.readsFirst_of_found (anchored : form.Anchored) {occurrence : Occurrence}
    (found : form.found? segment = some occurrence) :
    ∃ inner captures, form.ReadsFirst segment inner captures ∧
      occurrence.captures = form.behindKeyword captures := by
  obtain ⟨before, inner, captures, whole, read, rfl⟩ := found?_sound found
  refine ⟨inner, captures, ⟨read, before, whole, fun earlier other split reads => ?_⟩, rfl⟩
  obtain ⟨others, readOther⟩ := Option.ne_none_iff_exists'.mp reads
  obtain ⟨_, foundOther, start⟩ := anchored.exists_found?_of_read earlier readOther
  rw [← split, found] at foundOther
  obtain rfl := Option.some.inj foundOther
  exact start

theorem Anchored.found_of_readsFirst (anchored : form.Anchored)
    (reads : form.ReadsFirst segment inner captures) :
    ∃ start, form.found? segment = some ⟨start, form.behindKeyword captures⟩ := by
  obtain ⟨before, whole⟩ := reads.2.imp fun _ => And.left
  obtain ⟨occurrence, found, -⟩ := anchored.exists_found?_of_read before reads.1
  rw [← whole] at found
  obtain ⟨other, others, readsToo, same⟩ := anchored.readsFirst_of_found found
  obtain ⟨-, rfl⟩ := reads.unique readsToo
  exact ⟨occurrence.start, by rw [found, ← same]⟩

theorem Anchored.found_iff_readsFirst (anchored : form.Anchored) (segment : Text)
    (row : List Text) :
    (∃ occurrence, form.found? segment = some occurrence ∧ occurrence.row = row) ↔
      ∃ inner captures, form.ReadsFirst segment inner captures ∧
        captures.map (·.text.trim) = row := by
  have trimmed (start : Nat) (captures : List Capture) :
      (Occurrence.mk start (form.behindKeyword captures)).row = captures.map (·.text.trim) := by
    simp [Occurrence.row, behindKeyword, Function.comp_def]
  constructor
  · rintro ⟨⟨start, captures⟩, found, same⟩
    obtain ⟨inner, inside, reads, rfl⟩ := anchored.readsFirst_of_found found
    exact ⟨inner, inside, reads, (trimmed start inside).symm.trans same⟩
  · rintro ⟨inner, captures, reads, same⟩
    obtain ⟨start, found⟩ := anchored.found_of_readsFirst reads
    exact ⟨_, found, (trimmed start captures).trans same⟩

theorem OneLine.readsFirst_lastLine (oneLine : form.OneLine) :
    form.ReadsFirst (lastLine segment) inner captures ↔ form.ReadsFirst segment inner captures := by
  obtain ⟨head, ahead⟩ := exists_append_lastRun isPathChar segment
  rw [← lastLine_eq_lastRun] at ahead
  constructor
  · rintro ⟨read, before, whole, first⟩
    refine ⟨read, head ++ before, ?_, fun earlier other split reads => ?_⟩
    · rw [List.append_assoc head, List.append_assoc head, ← whole, ← ahead]
    · obtain ⟨others, readOther⟩ := Option.ne_none_iff_exists'.mp reads
      have line : lastLine segment = lastLine earlier ++ form.keyword ++ other := by
        rw [split, List.append_assoc, lastLine_eq_lastRun,
          lastRun_append_of_kept earlier (oneLine other others readOther), List.append_assoc,
          lastLine_eq_lastRun]
      have start := first (lastLine earlier) other line reads
      have total := congrArg List.length (ahead.symm.trans split)
      rw [line] at total
      simp only [List.length_append] at total ⊢
      omega
  · rintro ⟨read, before, whole, first⟩
    have line : lastLine segment = lastLine before ++ form.keyword ++ inner := by
      rw [whole, List.append_assoc, lastLine_eq_lastRun,
        lastRun_append_of_kept before (oneLine inner captures read), List.append_assoc,
        lastLine_eq_lastRun]
    refine ⟨read, lastLine before, line, fun earlier other split reads => ?_⟩
    have start := first (head ++ earlier) other
      (by rw [List.append_assoc head, List.append_assoc head, ← split, ← ahead]) reads
    have total := congrArg List.length (ahead.symm.trans whole)
    rw [line] at total
    simp only [List.length_append] at start total
    omega

/-- Where a form that can read on from a keyword can read on from every earlier one, it begins at
the first. -/
theorem readsFirst_iff_firstBehind
    (further : ∀ other, inner <:+ other → form.keyword ++ other <:+ line → form.read other ≠ none) :
    form.ReadsFirst line inner captures ↔
      FirstBehind form.keyword line inner ∧ form.read inner = some captures := by
  constructor
  · rintro ⟨read, before, whole, first⟩
    refine ⟨⟨before, whole, fun earlier other split => ?_⟩, read⟩
    by_contra shorter
    have total := congrArg List.length (split.symm.trans whole)
    simp only [List.length_append] at total
    have longer : inner <:+ other :=
      List.suffix_of_suffix_length_le ⟨_, whole.symm⟩ ⟨_, split.symm⟩ (by omega)
    exact shorter (first earlier other split (further other longer ⟨earlier, by simp [split]⟩))
  · rintro ⟨⟨before, whole, first⟩, read⟩
    exact ⟨read, before, whole, fun earlier other split _ => first earlier other split⟩

end Form

/-! ## Statements in a document -/

def Form.EndsAt (form : Form) (seen : Text) (occurrence : Occurrence) (position : Nat) : Prop :=
  ∃ found, form.matchAt (seen.drop occurrence.start) = some found ∧
    occurrence.start + found.length = position + 1

def later {α : Type} (distance : Nat) (item : Nat × α) : Nat × α := (distance + item.1, item.2)

namespace Form

variable {α : Type}

def EndsAs (form : Form) (row : α → List Text) (seen : Text) (occurrence : Occurrence)
    (item : Nat × α) : Prop :=
  form.EndsAt seen occurrence item.1 ∧ occurrence.row = row item.2

/-- The items that a form captures are those that a segment tells. -/
structure DecidedBy (form : Form) (row : α → List Text) (tells : Text → α → Prop) : Prop where
  anchored : form.Anchored
  injective : Function.Injective row
  exists_item : ∀ {segment occurrence}, form.found? segment = some occurrence →
    ∃ item, occurrence.row = row item
  found_iff : ∀ {segment}, terminator ∉ segment → ∀ item,
    (∃ occurrence, form.found? segment = some occurrence ∧ occurrence.row = row item) ↔
      tells segment item

variable {form : Form} {row : α → List Text} {tells : Text → α → Prop}

theorem Anchored.endsAt_of_found (anchored : form.Anchored) {segment : Text}
    (free : terminator ∉ segment) (rest : Text) {occurrence : Occurrence}
    (found : form.found? segment = some occurrence) :
    form.EndsAt (segment ++ terminator :: rest) occurrence segment.length := by
  obtain ⟨before, inner, captures, rfl, read, rfl⟩ := found?_sound found
  have freeToo : terminator ∉ form.keyword ++ inner := by
    intro inside
    exact free (by rw [List.append_assoc]; exact List.mem_append_right _ inside)
  have all := readAll_eq_some_iff.mpr ⟨inner, captures, rfl, read, rfl⟩
  refine ⟨⟨(form.keyword ++ inner).length + 1, form.behindKeyword captures⟩, ?_, ?_⟩
  · rw [List.append_assoc, List.append_assoc, List.drop_left, ← List.append_assoc,
      anchored.matchAt_segment freeToo, all, Option.map_some]
  · simp only [List.length_append]
    omega

theorem EndsAs.behind {rest : Text} {occurrence : Occurrence} {item : Nat × α}
    (ends : form.EndsAs row rest occurrence item) (segment : Text) :
    form.EndsAs row (segment ++ terminator :: rest) (occurrence.shift (segment.length + 1))
      (later (segment.length + 1) item) := by
  obtain ⟨⟨found, matched, reaches⟩, same⟩ := ends
  refine ⟨⟨found, ?_, ?_⟩, same⟩
  · rw [Occurrence.shift, drop_behind, matched]
  · simp only [Occurrence.shift, later]
    omega

theorem DecidedBy.exists_ending_of_segment (decided : form.DecidedBy row tells) {segment : Text}
    (free : terminator ∉ segment) (rest : Text) :
    ∃ here : List α, here.length ≤ 1 ∧ (∀ item, item ∈ here ↔ tells segment item) ∧
      List.Forall₂ (form.EndsAs row (segment ++ terminator :: rest)) (form.found? segment).toList
        (here.map (Prod.mk segment.length)) := by
  have decides := decided.found_iff free
  cases found : form.found? segment with
  | none =>
      refine ⟨[], Nat.zero_le _, fun item => ?_, .nil⟩
      rw [← decides, found]
      simp
  | some occurrence =>
      obtain ⟨item, same⟩ := decided.exists_item found
      refine ⟨[item], Nat.le_refl _, fun other => ?_, ?_⟩
      · rw [← decides, found]
        simp [same, decided.injective.eq_iff, eq_comm]
      · exact .cons ⟨decided.anchored.endsAt_of_found free rest found, same⟩ .nil

theorem DecidedBy.exists_endings (decided : form.DecidedBy row tells) (seen : Text) :
    ∃ found : List (Nat × α), found.Pairwise (·.1 < ·.1) ∧
      (∀ position item, (position, item) ∈ found ↔
        seen[position]? = some terminator ∧ tells (segmentBefore seen position) item) ∧
      List.Forall₂ (form.EndsAs row seen) (form.matcher.occurrences seen) found := by
  induction seen using Text.segmentInduction with
  | unfinished seen free =>
      refine ⟨[], .nil, fun position item => ?_, ?_⟩
      · refine iff_of_false List.not_mem_nil fun ends => ?_
        exact free (List.mem_of_getElem? ends.1)
      · rw [occurrences_of_unfinished _ free]
        exact .nil
  | ended segment rest free ih =>
      obtain ⟨here, single, items, endsHere⟩ := decided.exists_ending_of_segment free rest
      obtain ⟨others, ordered, places, ends⟩ := ih
      refine ⟨here.map (Prod.mk segment.length) ++ others.map (later (segment.length + 1)),
        ?_, fun position item => ?_, ?_⟩
      · rw [List.pairwise_append, List.pairwise_map]
        refine ⟨?_, ?_, ?_⟩
        · rcases Nat.le_one_iff_eq_zero_or_eq_one.mp single with none | one
          · rw [List.length_eq_zero_iff.mp none]
            exact .nil
          · obtain ⟨item, rfl⟩ := List.length_eq_one_iff.mp one
            exact List.pairwise_singleton _ _
        · rw [List.pairwise_map]
          exact ordered.imp fun less => Nat.add_lt_add_left less _
        · intro item atEnd other behind
          obtain ⟨_, -, rfl⟩ := List.mem_map.mp atEnd
          obtain ⟨_, -, rfl⟩ := List.mem_map.mp behind
          simp only [later]
          omega
      · rw [getElem?_eq_terminator_iff rest free, List.mem_append]
        constructor
        · rintro (atEnd | behind)
          · obtain ⟨_, inside, same⟩ := List.mem_map.mp atEnd
            obtain ⟨rfl, rfl⟩ := Prod.mk.inj same
            refine ⟨.inl rfl, ?_⟩
            rw [segmentBefore_segment _ _ free]
            exact (items _).mp inside
          · obtain ⟨⟨place, _⟩, inside, same⟩ := List.mem_map.mp behind
            obtain ⟨rfl, rfl⟩ := Prod.mk.inj same
            obtain ⟨mark, told⟩ := (places _ _).mp inside
            exact ⟨.inr ⟨place, mark, rfl⟩, by rw [segmentBefore_behind]; exact told⟩
        · rintro ⟨rfl | ⟨place, mark, rfl⟩, told⟩
          · rw [segmentBefore_segment _ _ free] at told
            exact .inl (List.mem_map_of_mem ((items item).mpr told))
          · rw [segmentBefore_behind] at told
            exact .inr (List.mem_map.mpr ⟨(place, item), (places _ _).mpr ⟨mark, told⟩, rfl⟩)
      · rw [decided.anchored.occurrences_segment free]
        refine List.rel_append endsHere ?_
        rw [List.forall₂_map_left_iff, List.forall₂_map_right_iff]
        exact ends.imp fun _ _ reaches => reaches.behind segment

theorem exists_endsAt_iff (injective : Function.Injective row) {seen : Text}
    {occurrences : List Occurrence} {found : List (Nat × α)}
    (ends : List.Forall₂ (form.EndsAs row seen) occurrences found) (position : Nat) (item : α) :
    (∃ occurrence ∈ occurrences, form.EndsAt seen occurrence position ∧
        occurrence.row = row item) ↔ (position, item) ∈ found := by
  induction ends with
  | nil => simp
  | @cons occurrence first _ _ ending _ ih =>
      obtain ⟨⟨matched, matchedHere, reaches⟩, captured⟩ := ending
      have here : form.EndsAt seen occurrence position ∧ occurrence.row = row item ↔
          (position, item) = first := by
        rw [EndsAt, matchedHere, captured]
        constructor
        · rintro ⟨⟨_, sameMatch, reachesToo⟩, same⟩
          obtain rfl := Option.some.inj sameMatch
          obtain rfl := injective same
          exact Prod.ext (by simp only; omega) rfl
        · rintro rfl
          exact ⟨⟨matched, rfl, reaches⟩, rfl⟩
      rw [List.exists_mem_cons_iff, here, ih, List.mem_cons]

end Form

namespace Kind

variable {α : Type} {kind : Kind} {row : α → List Text} {tells : Text → α → Prop}

theorem endsAt_iff (decided : (Form.ofKind kind).DecidedBy row tells) (text : Text)
    (position : Nat) (item : α) :
    (∃ occurrence ∈ kind.occurrences text,
      (Form.ofKind kind).EndsAt ((Pattern.ofKind kind).visibleText text) occurrence position ∧
        occurrence.row = row item) ↔
      ((Pattern.ofKind kind).visibleText text)[position]? = some terminator ∧
        tells (segmentBefore ((Pattern.ofKind kind).visibleText text) position) item := by
  obtain ⟨found, -, places, ends⟩ :=
    decided.exists_endings ((Pattern.ofKind kind).visibleText text)
  rw [occurrences, Form.exists_endsAt_iff decided.injective ends, places]

/-- The statements of a kind are extracted in the order of the terminators that end them. -/
theorem exists_extract (decided : (Form.ofKind kind).DecidedBy row tells) (text : Text) :
    ∃ found : List (Nat × α), found.Pairwise (·.1 < ·.1) ∧
      (∀ position item, (position, item) ∈ found ↔
        ((Pattern.ofKind kind).visibleText text)[position]? = some terminator ∧
          tells (segmentBefore ((Pattern.ofKind kind).visibleText text) position) item) ∧
      (Pattern.ofKind kind).extract text = .ok (found.map fun item => row item.2) := by
  obtain ⟨found, ordered, places, ends⟩ :=
    decided.exists_endings ((Pattern.ofKind kind).visibleText text)
  refine ⟨found, ordered, places, ?_⟩
  have rows : kind.rows text = found.map fun item => row item.2 := by
    rw [rows_eq_map_occurrences, ← List.forall₂_eq_eq_eq, List.forall₂_map_left_iff,
      List.forall₂_map_right_iff]
    exact ends.imp fun _ _ ending => ending.2
  rw [Pattern.extract_ofKind, rows]

end Kind

end CommandFile
