import CommandFile.Proofs.Masking

/-!
# Extraction

The statements of a built-in kind are those that its form finds in the segments of a
document, where a kind without a body reads the masked segments.  A complete text and what
is appended to it are extracted independently of each other.
-/

namespace CommandFile

namespace Kind

def visible (kind : Kind) (segment : Text) : Text :=
  if (Pattern.ofKind kind).hasBody then segment else maskSegment segment

def rowOf? (kind : Kind) (segment : Text) : Option (List Text) :=
  ((Form.ofKind kind).found? (kind.visible segment)).map Occurrence.row

def rows (kind : Kind) (text : Text) : List (List Text) :=
  (Form.ofKind kind).matcher.rows ((Pattern.ofKind kind).visibleText text)

def commands (kind : Kind) (text : Text) : List Command := (kind.rows text).map (Command.mk kind)

variable (kind : Kind)

theorem free_visible {segment : Text} (free : terminator ∉ segment) :
    terminator ∉ kind.visible segment := by
  unfold visible
  split
  · exact free
  · exact free_maskSegment free

theorem visibleText_segment {segment : Text} (free : terminator ∉ segment) (rest : Text) :
    (Pattern.ofKind kind).visibleText (segment ++ terminator :: rest) =
      kind.visible segment ++ terminator :: (Pattern.ofKind kind).visibleText rest := by
  unfold Pattern.visibleText visible
  split
  · rfl
  · exact mask_segment free rest

theorem visibleText_append {first : Text} (complete : first.Complete) (second : Text) :
    (Pattern.ofKind kind).visibleText (first ++ second) =
      (Pattern.ofKind kind).visibleText first ++ (Pattern.ofKind kind).visibleText second := by
  unfold Pattern.visibleText
  split
  · rfl
  · exact mask_append complete second

theorem complete_visibleText {text : Text} (complete : text.Complete) :
    ((Pattern.ofKind kind).visibleText text).Complete := by
  unfold Pattern.visibleText
  split
  · exact complete
  · exact complete_mask complete

theorem rows_segment {segment : Text} (free : terminator ∉ segment) (rest : Text) :
    kind.rows (segment ++ terminator :: rest) =
      (kind.rowOf? segment).toList ++ kind.rows rest := by
  rw [rows, kind.visibleText_segment free,
    (Form.anchored_ofKind kind).rows_segment (kind.free_visible free)]
  rfl

theorem visibleText_of_unfinished {text : Text} (free : terminator ∉ text) :
    (Pattern.ofKind kind).visibleText text = text := by
  unfold Pattern.visibleText
  split
  · rfl
  · exact mask_of_unfinished free

theorem rows_of_unfinished {text : Text} (free : terminator ∉ text) : kind.rows text = [] := by
  rw [rows, kind.visibleText_of_unfinished free, Form.rows_of_unfinished _ free]

theorem rows_append {first : Text} (complete : first.Complete) (second : Text) :
    kind.rows (first ++ second) = kind.rows first ++ kind.rows second := by
  induction complete using Text.Complete.induction with
  | empty =>
      have none : kind.rows [] = [] := kind.rows_of_unfinished (by simp)
      rw [none]
      rfl
  | ended segment rest free completeRest ih =>
      rw [List.append_assoc, List.cons_append, kind.rows_segment free, kind.rows_segment free,
        ih, List.append_assoc]

theorem rowOf?_newline (segment : Text) : kind.rowOf? ('\n' :: segment) = kind.rowOf? segment := by
  have visible : kind.visible ('\n' :: segment) = '\n' :: kind.visible segment := by
    unfold visible
    split
    · rfl
    · exact maskSegment_newline segment
  rw [rowOf?, visible, (Form.anchored_ofKind kind).found?_newline, Option.map_map]
  rfl

theorem rows_newline (text : Text) : kind.rows ('\n' :: text) = kind.rows text := by
  induction text using Text.segmentInduction with
  | unfinished text free =>
      have freeToo : terminator ∉ '\n' :: text := by simpa [terminator] using free
      rw [kind.rows_of_unfinished free, kind.rows_of_unfinished freeToo]
  | ended segment rest free _ =>
      have freeToo : terminator ∉ '\n' :: segment := by simpa [terminator] using free
      rw [← List.cons_append, kind.rows_segment freeToo, kind.rowOf?_newline,
        kind.rows_segment free]

theorem exists_read_of_rowOf? {segment : Text} {row : List Text}
    (found : kind.rowOf? segment = some row) :
    ∃ inner captures, (Form.ofKind kind).keyword ++ inner <:+ kind.visible segment ∧
      (Form.ofKind kind).read inner = some captures ∧
      row = captures.map fun capture => capture.text.trim := by
  obtain ⟨occurrence, foundHere, rfl⟩ := Option.map_eq_some_iff.mp found
  obtain ⟨before, inner, captures, whole, read, rfl⟩ := Form.found?_sound foundHere
  refine ⟨inner, captures, ⟨before, by simp [whole]⟩, read, ?_⟩
  simp [Occurrence.row, Form.behindKeyword, Function.comp_def]

theorem exists_read_of_mem_rows {text : Text} {row : List Text} (member : row ∈ kind.rows text) :
    ∃ inner captures,
      (Form.ofKind kind).keyword ++ inner <:+: (Pattern.ofKind kind).visibleText text ∧
      (Form.ofKind kind).read inner = some captures ∧
      row = captures.map fun capture => capture.text.trim := by
  induction text using Text.segmentInduction with
  | unfinished text free => simp [kind.rows_of_unfinished free] at member
  | ended segment rest free ih =>
      rw [kind.rows_segment free, List.mem_append, Option.mem_toList] at member
      rw [kind.visibleText_segment free]
      rcases member with here | later
      · obtain ⟨inner, captures, inside, read, same⟩ := kind.exists_read_of_rowOf? here
        exact ⟨inner, captures, List.infix_append_of_infix_left inside.isInfix, read, same⟩
      · obtain ⟨inner, captures, inside, read, same⟩ := ih later
        exact ⟨inner, captures,
          List.infix_append_of_infix_right (List.infix_cons inside), read, same⟩

theorem length_of_mem_rows {text : Text} {row : List Text} (member : row ∈ kind.rows text) :
    row.length = (Form.ofKind kind).slots.length := by
  obtain ⟨inner, captures, -, read, rfl⟩ := kind.exists_read_of_mem_rows member
  rw [← Form.slots_of_read read, List.length_map, List.length_map]

end Kind

namespace Pattern

@[simp] theorem kind_ofKind (kind : Kind) : (ofKind kind).kind = kind := rfl

/-- A built-in kind has one matcher, so its batches are never rejected. -/
theorem extract_ofKind (kind : Kind) (text : Text) :
    (ofKind kind).extract text = .ok (kind.rows text) := by
  simp [extract, columns, ofKind, Kind.rows]

theorem commands_ofKind (kind : Kind) (text : Text) :
    (ofKind kind).commands text = .ok (kind.commands text) := by
  rw [commands, extract_ofKind]
  rfl

/-- Statements that are appended to a complete text are extracted behind those of the
text, which stay where and as they were. -/
theorem extract_append (kind : Kind) (first second : Text)
    (complete : first = [] ∨ first.getLast? = some terminator) :
    (∃ rows others, (ofKind kind).extract first = .ok rows ∧
      (ofKind kind).extract second = .ok others ∧
      (ofKind kind).extract (first ++ second) = .ok (rows ++ others)) ∧
    mask (first ++ second) = mask first ++ mask second ∧
    (Form.ofKind kind).matcher.occurrences ((ofKind kind).visibleText first) <+:
      (Form.ofKind kind).matcher.occurrences ((ofKind kind).visibleText (first ++ second)) := by
  refine ⟨⟨kind.rows first, kind.rows second, ?_, ?_, ?_⟩, ?_, ?_⟩
  · exact extract_ofKind kind first
  · exact extract_ofKind kind second
  · rw [extract_ofKind, kind.rows_append complete]
  · exact mask_append complete second
  · rw [kind.visibleText_append complete,
      (Form.anchored_ofKind kind).occurrences_append (kind.complete_visibleText complete)]
    exact List.prefix_append _ _

/-- A statement that was never finished swallows nothing of what is appended. -/
theorem extract_append_unfinished :
    let first := Text.ofString "WRITE TO a THIS CONTENT: \"CREATE FILE b;"
    let second := Text.ofString "\nCREATE FILE c;"
    first.getLast? = some terminator ∧
    (ofKind .createFile).extract (first ++ second) =
      .ok [[Text.ofString "b"], [Text.ofString "c"]] := by
  intro first second
  have ends : first.getLast? = some terminator := by decide
  obtain ⟨⟨rows, others, inFirst, inSecond, together⟩, -⟩ :=
    extract_append .createFile first second (.inr ends)
  have rowsEq : (ofKind .createFile).extract first = .ok [[Text.ofString "b"]] := by decide
  have othersEq : (ofKind .createFile).extract second = .ok [[Text.ofString "c"]] := by decide
  rw [rowsEq, Except.ok.injEq] at inFirst
  rw [othersEq, Except.ok.injEq] at inSecond
  exact ⟨ends, by rw [together, ← inFirst, ← inSecond]; rfl⟩

end Pattern

end CommandFile
