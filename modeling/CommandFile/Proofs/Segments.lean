import CommandFile.Proofs.Words
import CommandFile.Statement.Pattern
import Mathlib.Data.List.TakeWhile

/-!
# Segments

A terminator ends the statement that is open at it, so a document falls apart into
segments, and the rest behind the last terminator holds no statement.  A form finds at
most one statement in a segment.  What it finds there depends on nothing outside, and
`rows_segment` reads a document segment by segment.
-/

namespace CommandFile

namespace Text

/-- A text is made of segments, each one ended by a terminator, and of a rest without
one. -/
@[elab_as_elim]
theorem segmentInduction {motive : Text → Prop}
    (unfinished : ∀ text, terminator ∉ text → motive text)
    (ended : ∀ segment rest, terminator ∉ segment → motive rest →
      motive (segment ++ terminator :: rest))
    (text : Text) : motive text := by
  by_cases ends : terminator ∈ text
  · obtain ⟨segment, rest, whole, free⟩ := List.eq_append_cons_of_mem ends
    have shorter : rest.length < text.length := by
      simp only [whole, List.length_append, List.length_cons]
      omega
    rw [whole]
    exact ended segment rest free (segmentInduction unfinished ended rest)
  · exact unfinished text ends
termination_by text.length

/-- No statement is open at the end of a complete text. -/
def Complete (text : Text) : Prop := text = [] ∨ text.getLast? = some terminator

@[simp] theorem complete_nil : Complete [] := .inl rfl

theorem complete_segment {segment rest : Text} :
    Complete (segment ++ terminator :: rest) ↔ Complete rest := by
  cases rest with
  | nil => simp [Complete]
  | cons character rest => simp [Complete]

@[elab_as_elim]
theorem Complete.induction {motive : (text : Text) → Complete text → Prop}
    (empty : motive [] complete_nil)
    (ended : ∀ segment rest, terminator ∉ segment → ∀ complete : Complete rest,
      motive rest complete →
        motive (segment ++ terminator :: rest) (complete_segment.mpr complete))
    {text : Text} (complete : Complete text) : motive text complete := by
  induction text using segmentInduction with
  | unfinished text free =>
      rcases complete with rfl | last
      · exact empty
      · exact absurd (List.mem_of_getLast? last) free
  | ended segment rest free ih =>
      have completeRest := complete_segment.mp complete
      exact ended segment rest free completeRest (ih completeRest)

end Text

/-! ## Occurrences behind other text -/

namespace Occurrence

def shift (distance : Nat) (occurrence : Occurrence) : Occurrence :=
  { occurrence with start := distance + occurrence.start }

@[simp] theorem shift_zero (occurrence : Occurrence) : occurrence.shift 0 = occurrence := by
  simp [shift]

@[simp] theorem shift_shift (first second : Nat) (occurrence : Occurrence) :
    (occurrence.shift second).shift first = occurrence.shift (first + second) := by
  simp [shift, Nat.add_assoc]

@[simp] theorem row_shift (distance : Nat) (occurrence : Occurrence) :
    (occurrence.shift distance).row = occurrence.row := rfl

theorem bodySpan?_shift (distance : Nat) (occurrence : Occurrence) :
    (occurrence.shift distance).bodySpan? =
      occurrence.bodySpan?.map fun span => (distance + span.1, distance + span.2) := by
  simp only [bodySpan?, shift, Option.map_map]
  congr 1
  funext capture
  simp [Nat.add_assoc]

end Occurrence

namespace Matcher

theorem occurrencesFrom_skip (matcher : Matcher) (position : Nat) (passed rest : Text) :
    matcher.occurrencesFrom position passed.length (passed ++ rest) =
      matcher.occurrencesFrom (position + passed.length) 0 rest := by
  induction passed generalizing position with
  | nil => rfl
  | cons character passed ih =>
      simp only [List.length_cons, List.cons_append, occurrencesFrom, ih]
      congr 1
      omega

theorem occurrencesFrom_shift (matcher : Matcher) (distance position skip : Nat)
    (text : Text) :
    matcher.occurrencesFrom (distance + position) skip text =
      (matcher.occurrencesFrom position skip text).map (·.shift distance) := by
  induction text generalizing position skip with
  | nil => rfl
  | cons character rest ih =>
      cases skip with
      | succ skip => simp only [occurrencesFrom, Nat.add_assoc, ih]
      | zero =>
          simp only [occurrencesFrom]
          split <;> simp [Nat.add_assoc, ih, Occurrence.shift]

theorem occurrencesFrom_eq_map (matcher : Matcher) (position : Nat) (text : Text) :
    matcher.occurrencesFrom position 0 text =
      (matcher.occurrences text).map (·.shift position) := by
  rw [occurrences, ← occurrencesFrom_shift, Nat.add_zero]

end Matcher

/-! ## Forms in a segment -/

namespace Form

/-- A keyword is there, it lies on one line, and no statement begins behind its own
end. -/
structure Anchored (form : Form) : Prop where
  worded : form.keyword ≠ []
  unmarked : terminator ∉ form.keyword
  oneLine : '\n' ∉ form.keyword

theorem anchored_ofKind (kind : Kind) : (ofKind kind).Anchored := by
  constructor <;> cases kind <;> decide

def behindKeyword (form : Form) (captures : List Capture) : List Capture :=
  captures.map fun capture => { capture with offset := form.keyword.length + capture.offset }

def readAll (form : Form) (segment : Text) : Option (List Capture) :=
  (segment.after? form.keyword).bind fun inner => (form.read inner).map form.behindKeyword

def found? (form : Form) : Text → Option Occurrence
  | [] => none
  | character :: rest =>
      match form.readAll (character :: rest) with
      | some captures => some ⟨0, captures⟩
      | none => (found? form rest).map (·.shift 1)

theorem readAll_eq_some_iff {form : Form} {segment : Text} {captures : List Capture} :
    form.readAll segment = some captures ↔
      ∃ inner inside, segment = form.keyword ++ inner ∧ form.read inner = some inside ∧
        captures = form.behindKeyword inside := by
  simp only [readAll, Option.bind_eq_some_iff, Option.map_eq_some_iff,
    Text.after?_eq_some_iff]
  constructor
  · rintro ⟨inner, rfl, inside, read, rfl⟩
    exact ⟨inner, inside, rfl, read, rfl⟩
  · rintro ⟨inner, inside, rfl, read, rfl⟩
    exact ⟨inner, rfl, inside, read, rfl⟩

variable {form : Form}

theorem Anchored.after?_segment (anchored : form.Anchored) (segment rest : Text) :
    (segment ++ terminator :: rest).after? form.keyword =
      (segment.after? form.keyword).map (· ++ terminator :: rest) := by
  cases inSegment : segment.after? form.keyword with
  | some inner =>
      rw [Text.after?_eq_some_iff.mp inSegment, List.append_assoc, Text.after?_append]
      rfl
  | none =>
      rw [Text.after?_eq_none_iff] at inSegment
      rw [Option.map_none, Text.after?_eq_none_iff]
      rintro ⟨behind, same⟩
      rcases List.append_eq_append_iff.mp same with ⟨more, ended, -⟩ | ⟨more, ended, tail⟩
      · exact inSegment ⟨more, ended.symm⟩
      · cases more with
        | nil => exact inSegment ⟨[], by simp [ended]⟩
        | cons character more =>
            rw [List.cons_append, List.cons.injEq] at tail
            exact anchored.unmarked (by rw [ended, tail.1]; simp)

theorem Anchored.matchAt_segment (anchored : form.Anchored) {segment : Text}
    (free : terminator ∉ segment) (rest : Text) :
    form.matchAt (segment ++ terminator :: rest) =
      (form.readAll segment).map fun captures => ⟨segment.length + 1, captures⟩ := by
  rw [matchAt, anchored.after?_segment, readAll]
  cases inSegment : segment.after? form.keyword with
  | none => rfl
  | some inner =>
      have whole := Text.after?_eq_some_iff.mp inSegment
      have innerFree : ∀ character ∈ inner, decide (character ≠ terminator) = true := by
        intro character inside
        rw [decide_eq_true_iff]
        rintro rfl
        exact free (by rw [whole]; simp [inside])
      have taken : (inner ++ terminator :: rest).takeWhile (· ≠ terminator) = inner := by
        rw [List.takeWhile_append_of_pos innerFree]
        simp
      simp only [Option.map_some, Option.bind_some]
      rw [taken, List.drop_left]
      simp only [Option.map_map, whole]
      congr 1
      funext captures
      simp [behindKeyword]

theorem matchAt_of_unfinished (form : Form) {text : Text} (free : terminator ∉ text) :
    form.matchAt text = none := by
  rw [matchAt]
  cases behind : text.after? form.keyword with
  | none => rfl
  | some rest =>
      have whole := Text.after?_eq_some_iff.mp behind
      have taken : rest.takeWhile (· ≠ terminator) = rest := by
        rw [List.takeWhile_eq_self_iff]
        intro character inside
        rw [decide_eq_true_iff]
        rintro rfl
        exact free (by rw [whole]; simp [inside])
      simp only [taken, List.drop_length]

theorem found?_sound {segment : Text} {occurrence : Occurrence}
    (found : form.found? segment = some occurrence) :
    ∃ before inner inside, segment = before ++ form.keyword ++ inner ∧
      form.read inner = some inside ∧
      occurrence = ⟨before.length, form.behindKeyword inside⟩ := by
  induction segment generalizing occurrence with
  | nil => simp [found?] at found
  | cons character segment ih =>
      rw [found?] at found
      split at found
      · next captures all =>
          obtain ⟨inner, inside, whole, read, rfl⟩ := readAll_eq_some_iff.mp all
          obtain rfl := Option.some.inj found
          exact ⟨[], inner, inside, whole, read, rfl⟩
      · next unread =>
          obtain ⟨later, foundLater, rfl⟩ := Option.map_eq_some_iff.mp found
          obtain ⟨before, inner, inside, rfl, read, rfl⟩ := ih foundLater
          exact ⟨character :: before, inner, inside, rfl, read, by
            simp [Occurrence.shift, Nat.add_comm]⟩

theorem Anchored.found?_of_read (anchored : form.Anchored) {inner : Text}
    {captures : List Capture} (read : form.read inner = some captures) :
    form.found? (form.keyword ++ inner) = some ⟨0, form.behindKeyword captures⟩ := by
  have all := readAll_eq_some_iff.mpr ⟨inner, captures, rfl, read, rfl⟩
  cases whole : form.keyword ++ inner with
  | nil => exact absurd (List.append_eq_nil_iff.mp whole).1 anchored.worded
  | cons character rest =>
      rw [whole] at all
      simp only [found?, all]

theorem Anchored.exists_found?_of_read (anchored : form.Anchored) (before : Text) {inner : Text}
    {captures : List Capture} (read : form.read inner = some captures) :
    ∃ occurrence, form.found? (before ++ form.keyword ++ inner) = some occurrence ∧
      occurrence.start ≤ before.length := by
  induction before with
  | nil => exact ⟨_, anchored.found?_of_read read, Nat.le_refl 0⟩
  | cons character before ih =>
      obtain ⟨later, foundLater, start⟩ := ih
      rw [List.cons_append, List.cons_append, found?]
      split
      · exact ⟨_, rfl, Nat.zero_le _⟩
      · refine ⟨_, by rw [foundLater, Option.map_some], ?_⟩
        simp only [Occurrence.shift, List.length_cons]
        omega

theorem Anchored.found?_newline (anchored : form.Anchored) (segment : Text) :
    form.found? ('\n' :: segment) = (form.found? segment).map (·.shift 1) := by
  have unread : form.readAll ('\n' :: segment) = none := by
    rw [Option.eq_none_iff_forall_ne_some]
    intro captures read
    obtain ⟨inner, inside, whole, -, -⟩ := readAll_eq_some_iff.mp read
    rcases List.cons_eq_append_iff.mp whole with ⟨none, -⟩ | ⟨rest, keyword, -⟩
    · exact anchored.worded none
    · exact anchored.oneLine (by simp [keyword])
  simp only [found?, unread]

theorem Anchored.readAll_nil (anchored : form.Anchored) : form.readAll [] = none := by
  rw [Option.eq_none_iff_forall_ne_some]
  intro captures read
  obtain ⟨inner, inside, whole, -, -⟩ := readAll_eq_some_iff.mp read
  exact anchored.worded (List.append_eq_nil_iff.mp whole.symm).1

theorem Anchored.occurrencesFrom_segment (anchored : form.Anchored) {segment : Text}
    (free : terminator ∉ segment) (position : Nat) (rest : Text) :
    form.matcher.occurrencesFrom position 0 (segment ++ terminator :: rest) =
      ((form.found? segment).map (·.shift position)).toList ++
        form.matcher.occurrencesFrom (position + segment.length + 1) 0 rest := by
  induction segment generalizing position with
  | nil =>
      have none := anchored.matchAt_segment free rest
      rw [anchored.readAll_nil] at none
      rw [List.nil_append] at none ⊢
      simp [Matcher.occurrencesFrom, matcher, none, found?]
  | cons character segment ih =>
      -- A match here fills what is left of the segment, and without one the scan moves on.
      have here := anchored.matchAt_segment free rest
      rw [List.cons_append] at here ⊢
      simp only [Matcher.occurrencesFrom, found?]
      rw [show form.matcher.matchAt = form.matchAt from rfl, here]
      cases read : form.readAll (character :: segment) with
      | some captures =>
          have skip := form.matcher.occurrencesFrom_skip (position + 1)
            (segment ++ [terminator]) rest
          simp only [List.append_assoc, List.singleton_append, List.length_append,
            List.length_singleton] at skip
          simp [skip, Occurrence.shift, Nat.add_assoc, Nat.add_comm 1]
      | none =>
          have later := ih (fun inside => free (List.mem_cons_of_mem _ inside))
            (position + 1)
          simp [later, Function.comp_def, Nat.add_assoc, Nat.add_comm 1]

theorem Anchored.occurrences_segment (anchored : form.Anchored) {segment : Text}
    (free : terminator ∉ segment) (rest : Text) :
    form.matcher.occurrences (segment ++ terminator :: rest) =
      (form.found? segment).toList ++
        (form.matcher.occurrences rest).map (·.shift (segment.length + 1)) := by
  rw [Matcher.occurrences, anchored.occurrencesFrom_segment free,
    Matcher.occurrencesFrom_eq_map]
  simp

theorem Anchored.occurrences_append (anchored : form.Anchored) {first : Text}
    (complete : first.Complete) (second : Text) :
    form.matcher.occurrences (first ++ second) =
      form.matcher.occurrences first ++
        (form.matcher.occurrences second).map (·.shift first.length) := by
  induction complete using Text.Complete.induction with
  | empty => simp [Matcher.occurrences, Matcher.occurrencesFrom]
  | ended segment rest free completeRest ih =>
      rw [List.append_assoc, List.cons_append, anchored.occurrences_segment free,
        anchored.occurrences_segment free, ih]
      simp [Function.comp_def, Nat.add_assoc, Nat.add_comm 1]

theorem occurrences_of_unfinished (form : Form) {text : Text} (free : terminator ∉ text) :
    form.matcher.occurrences text = [] := by
  have scan (position : Nat) : form.matcher.occurrencesFrom position 0 text = [] := by
    induction text generalizing position with
    | nil => rfl
    | cons character rest ih =>
        have none := form.matchAt_of_unfinished free
        have later := ih (fun inside => free (List.mem_cons_of_mem _ inside)) (position + 1)
        simp only [Matcher.occurrencesFrom, later]
        rw [show form.matcher.matchAt = form.matchAt from rfl, none]
  exact scan 0

/-- The statements of a document are those of its segments. -/
theorem Anchored.rows_segment (anchored : form.Anchored) {segment : Text}
    (free : terminator ∉ segment) (rest : Text) :
    form.matcher.rows (segment ++ terminator :: rest) =
      ((form.found? segment).map Occurrence.row).toList ++ form.matcher.rows rest := by
  rw [Matcher.rows, anchored.occurrences_segment free, Matcher.rows]
  cases form.found? segment <;> simp

theorem rows_of_unfinished (form : Form) {text : Text} (free : terminator ∉ text) :
    form.matcher.rows text = [] := by
  rw [Matcher.rows, form.occurrences_of_unfinished free, List.map_nil]

end Form

end CommandFile
