import CommandFile.Proofs.Endings

/-!
# Lines

A creation or a renaming stands on the line that its terminator ends, behind the first keyword of
that line.  What stands on the lines before, finished or not, neither hides it nor becomes part of
it.
-/

namespace CommandFile

/-! ## What a line asks for -/

def Creates (keyword line path : Text) : Prop :=
  ∃ rest, FirstBehind keyword line rest ∧ rest ≠ [] ∧ path = rest.trim

def renameWord : Text := Text.ofString "RENAME "

/-- Something stands on either side of the word between the paths of a renaming. -/
def Divides (rest first second : Text) : Prop :=
  rest = first ++ Form.toWord ++ second ∧ first ≠ [] ∧ second ≠ []

def DividesFirst (rest first second : Text) : Prop :=
  Divides rest first second ∧
    ∀ other others, Divides rest other others → first.length ≤ other.length

/-- A line renames what stands behind the first keyword, up to the first place to divide it. -/
def Renames (line path newPath : Text) : Prop :=
  ∃ rest first second, FirstBehind renameWord line rest ∧ DividesFirst rest first second ∧
    path = first.trim ∧ newPath = second.trim

def Asks : Kind → Text → List Text → Prop
  | .createFolder, line, row =>
      ∃ path, Creates (Text.ofString "CREATE FOLDER ") line path ∧ row = [path]
  | .createFile, line, row =>
      ∃ path, Creates (Text.ofString "CREATE FILE ") line path ∧ row = [path]
  | .rename, line, row => ∃ path newPath, Renames line path newPath ∧ row = [path, newPath]
  | _, _, _ => False

def namings : List Kind := [.createFolder, .createFile, .rename]

theorem exists_dividesFirst_iff (rest : Text) :
    (∃ first second, DividesFirst rest first second) ↔
      ∃ first second, Divides rest first second := by
  constructor
  · rintro ⟨first, second, divides, -⟩
    exact ⟨first, second, divides⟩
  · rintro ⟨first, second, divides⟩
    have present : ∃ parts : Text × Text, Divides rest parts.1 parts.2 := ⟨(first, second), divides⟩
    obtain ⟨parts, dividesToo, least⟩ := exists_shortest present (·.1.length)
    exact ⟨parts.1, parts.2, dividesToo, fun other others => least (other, others)⟩

theorem exists_renames_iff (line : Text) :
    (∃ path newPath, Renames line path newPath) ↔
      ∃ rest first second, FirstBehind renameWord line rest ∧ Divides rest first second := by
  constructor
  · rintro ⟨_, _, rest, first, second, behind, divides, -⟩
    exact ⟨rest, first, second, behind, divides.1⟩
  · rintro ⟨rest, first, second, behind, divides⟩
    obtain ⟨least, others, dividesFirst⟩ := (exists_dividesFirst_iff rest).mpr ⟨_, _, divides⟩
    exact ⟨_, _, rest, least, others, behind, dividesFirst, rfl, rfl⟩

namespace Form

variable {form : Form} {line inner : Text}

theorem isPath_of_suffix (oneLine : ∀ character ∈ line, isPathChar character = true)
    (inside : inner <:+ line) (some : inner ≠ []) : IsPath inner :=
  ⟨some, fun character member => oneLine character (inside.mem member)⟩

theorem suffix_of_firstBehind {word : Text} (behind : FirstBehind word line inner) :
    inner <:+ line := by
  obtain ⟨before, whole, -⟩ := behind
  exact ⟨before ++ word, whole.symm⟩

/-! ### Creations -/

theorem creates_iff_readsFirst (bare : form.read = readPath)
    (oneLine : ∀ character ∈ line, isPathChar character = true) (row : List Text) :
    (∃ path, Creates form.keyword line path ∧ row = [path]) ↔
      ∃ inner captures, form.ReadsFirst line inner captures ∧
        captures.map (·.text.trim) = row := by
  have reads {inner : Text} {captures : List Capture} :
      form.read inner = some captures ↔ IsPath inner ∧ captures = [⟨.path, 0, inner⟩] := by
    rw [bare]
    exact readPath_eq_some_iff
  have further {inner : Text} (some : inner ≠ []) (other : Text) (longer : inner <:+ other)
      (inside : form.keyword ++ other <:+ line) : form.read other ≠ none := by
    have present : other ≠ [] := by
      rintro rfl
      exact some (List.suffix_nil.mp longer)
    have isPath := isPath_of_suffix oneLine ((List.suffix_append _ _).trans inside) present
    exact Option.ne_none_iff_exists'.mpr ⟨_, reads.mpr ⟨isPath, rfl⟩⟩
  constructor
  · rintro ⟨_, ⟨rest, behind, some, rfl⟩, rfl⟩
    have isPath := isPath_of_suffix oneLine (suffix_of_firstBehind behind) some
    exact ⟨rest, _, (readsFirst_iff_firstBehind (further some)).mpr
      ⟨behind, reads.mpr ⟨isPath, rfl⟩⟩, rfl⟩
  · rintro ⟨inner, captures, first, rfl⟩
    obtain ⟨isPath, rfl⟩ := reads.mp first.1
    obtain ⟨behind, -⟩ := (readsFirst_iff_firstBehind (further isPath.1)).mp first
    exact ⟨_, ⟨inner, behind, isPath.1, rfl⟩, rfl⟩

/-! ### Renamings -/

theorem Divides.isPath {rest first second : Text} (divides : Divides rest first second)
    (oneLine : ∀ character ∈ rest, isPathChar character = true) :
    IsPath first ∧ IsPath second := by
  obtain ⟨rfl, some, someToo⟩ := divides
  exact ⟨⟨some, fun character inside => oneLine character (by simp [inside])⟩,
    ⟨someToo, fun character inside => oneLine character (by simp [inside])⟩⟩

theorem DividesFirst.unique {rest first second other others : Text}
    (divides : DividesFirst rest first second) (dividesToo : DividesFirst rest other others) :
    first = other ∧ second = others := by
  have same := Nat.le_antisymm (divides.2 _ _ dividesToo.1) (dividesToo.2 _ _ divides.1)
  have whole := divides.1.1.symm.trans dividesToo.1.1
  rw [List.append_assoc, List.append_assoc] at whole
  obtain ⟨rfl, behind⟩ := List.append_inj whole same
  exact ⟨rfl, List.append_cancel_left behind⟩

theorem dividesFirst_of_readTwoPaths
    (oneLine : ∀ character ∈ inner, isPathChar character = true) {captures : List Capture}
    (read : readTwoPaths inner = some captures) :
    ∃ first second, DividesFirst inner first second ∧
      captures = [⟨.path, 0, first⟩, ⟨.newPath, first.length + toWord.length, second⟩] := by
  obtain ⟨path, newPath, whole, isPath, isNewPath, rfl, shortest⟩ := readTwoPaths_shortest read
  refine ⟨path, newPath, ⟨⟨whole, isPath.1, isNewPath.1⟩, fun other others divides => ?_⟩, rfl⟩
  by_contra shorter
  obtain ⟨-, isPathToo⟩ := Divides.isPath divides oneLine
  obtain ⟨split, some, -⟩ := divides
  have start : path <+: inner := ⟨toWord ++ newPath, by rw [whole, List.append_assoc]⟩
  have startToo : other <+: inner := ⟨toWord ++ others, by rw [split, List.append_assoc]⟩
  obtain ⟨more, rfl⟩ := List.prefix_of_prefix_length_le startToo start (by omega)
  have someMore : more ≠ [] := by
    rintro rfl
    simp at shorter
  have stays := shortest other more some someMore rfl
  rw [split, List.append_assoc, List.append_assoc, List.append_assoc,
    List.append_cancel_left_eq] at whole
  rw [← whole, newPath_behind_toWord isPathToo] at stays
  nomatch stays

theorem readTwoPaths_eq_some_iff (oneLine : ∀ character ∈ inner, isPathChar character = true)
    {captures : List Capture} :
    readTwoPaths inner = some captures ↔
      ∃ first second, DividesFirst inner first second ∧
        captures = [⟨.path, 0, first⟩, ⟨.newPath, first.length + toWord.length, second⟩] := by
  constructor
  · exact dividesFirst_of_readTwoPaths oneLine
  · rintro ⟨first, second, divides, rfl⟩
    obtain ⟨isPath, isPathToo⟩ := Divides.isPath divides.1 oneLine
    obtain ⟨captures, read⟩ := exists_readTwoPaths isPath isPathToo
    rw [← divides.1.1] at read
    obtain ⟨other, others, dividesToo, rfl⟩ := dividesFirst_of_readTwoPaths oneLine read
    obtain ⟨rfl, rfl⟩ := DividesFirst.unique divides dividesToo
    exact read

theorem renames_iff_readsFirst (oneLine : ∀ character ∈ line, isPathChar character = true)
    (row : List Text) :
    (∃ path newPath, Renames line path newPath ∧ row = [path, newPath]) ↔
      ∃ inner captures, rename.ReadsFirst line inner captures ∧
        captures.map (·.text.trim) = row := by
  have reads {inner : Text} (inside : inner <:+ line) {captures : List Capture} :
      rename.read inner = some captures ↔ ∃ first second, DividesFirst inner first second ∧
        captures = [⟨.path, 0, first⟩, ⟨.newPath, first.length + toWord.length, second⟩] :=
    readTwoPaths_eq_some_iff fun character member => oneLine character (inside.mem member)
  have further {inner first second : Text} (divides : Divides inner first second) (other : Text)
      (longer : inner <:+ other) (inside : rename.keyword ++ other <:+ line) :
      rename.read other ≠ none := by
    obtain ⟨more, rfl⟩ := longer
    obtain ⟨rfl, some, someToo⟩ := divides
    have dividesToo : Divides (more ++ (first ++ toWord ++ second)) (more ++ first) second :=
      ⟨by simp, by simp [some], someToo⟩
    obtain ⟨least, others, dividesFirst⟩ := (exists_dividesFirst_iff _).mpr ⟨_, _, dividesToo⟩
    exact Option.ne_none_iff_exists'.mpr
      ⟨_, (reads ((List.suffix_append _ _).trans inside)).mpr ⟨least, others, dividesFirst, rfl⟩⟩
  constructor
  · rintro ⟨_, _, ⟨rest, first, second, behind, divides, rfl, rfl⟩, rfl⟩
    have read := (reads (suffix_of_firstBehind behind)).mpr ⟨first, second, divides, rfl⟩
    exact ⟨rest, _, (readsFirst_iff_firstBehind (further divides.1)).mpr ⟨behind, read⟩, rfl⟩
  · rintro ⟨inner, captures, readsFirst, rfl⟩
    obtain ⟨read, before, whole, -⟩ := id readsFirst
    obtain ⟨first, second, divides, rfl⟩ := (reads ⟨_, whole.symm⟩).mp read
    obtain ⟨behind, -⟩ := (readsFirst_iff_firstBehind (further divides.1)).mp readsFirst
    exact ⟨_, _, ⟨inner, first, second, behind, divides, rfl, rfl⟩, rfl⟩

/-! ### Statements on one line -/

theorem oneLine_readPath (form : Form) (bare : form.read = readPath)
    (oneLine : ∀ character ∈ form.keyword, isPathChar character = true) : form.OneLine := by
  intro inner captures read
  rw [bare] at read
  exact ((readPath_eq_some_iff.mp read).1.append oneLine).2

theorem oneLine_rename : rename.OneLine := by
  intro inner captures read
  obtain ⟨path, newPath, rfl, isPath, isNewPath, -⟩ := readTwoPaths_sound read
  have isTo : ∀ character ∈ toWord, isPathChar character = true := List.all_eq_true.mp (by decide)
  have isKeyword : ∀ character ∈ rename.keyword, isPathChar character = true :=
    List.all_eq_true.mp (by decide)
  simp only [List.forall_mem_append]
  exact ⟨isKeyword, ⟨isPath.2, isTo⟩, isNewPath.2⟩

end Form

theorem oneLine_of_mem_namings {kind : Kind} (naming : kind ∈ namings) :
    (Form.ofKind kind).OneLine := by
  rcases (by simpa [namings] using naming) with rfl | rfl | rfl
  · exact Form.oneLine_readPath Form.createFolder rfl (List.all_eq_true.mp (by decide))
  · exact Form.oneLine_readPath Form.createFile rfl (List.all_eq_true.mp (by decide))
  · exact Form.oneLine_rename

theorem hasBody_of_mem_namings {kind : Kind} (naming : kind ∈ namings) :
    (Pattern.ofKind kind).hasBody = false := by
  revert naming
  cases kind <;> decide

theorem asks_iff_readsFirst {kind : Kind} (naming : kind ∈ namings) {line : Text}
    (oneLine : ∀ character ∈ line, Form.isPathChar character = true) (row : List Text) :
    Asks kind line row ↔
      ∃ inner captures, (Form.ofKind kind).ReadsFirst line inner captures ∧
        captures.map (·.text.trim) = row := by
  rcases (by simpa [namings] using naming) with rfl | rfl | rfl
  · have bare : Form.createFolder.read = Form.readPath := rfl
    exact Form.creates_iff_readsFirst bare oneLine row
  · have bare : Form.createFile.read = Form.readPath := rfl
    exact Form.creates_iff_readsFirst bare oneLine row
  · exact Form.renames_iff_readsFirst oneLine row

theorem decidedBy_asks {kind : Kind} (naming : kind ∈ namings) :
    (Form.ofKind kind).DecidedBy id fun segment row => Asks kind (lastLine segment) row where
  anchored := Form.anchored_ofKind kind
  injective := Function.injective_id
  exists_item _ := ⟨_, rfl⟩
  found_iff _ row := by
    rw [id, (Form.anchored_ofKind kind).found_iff_readsFirst,
      asks_iff_readsFirst naming fun _ => isPathChar_of_mem_lastLine]
    simp only [(oneLine_of_mem_namings naming).readsFirst_lastLine]

theorem lineBefore_of_line {line : Text}
    (oneLine : ∀ character ∈ line, Form.isPathChar character = true) (before rest : Text) :
    lineBefore (before ++ '\n' :: (line ++ rest)) (before.length + 1 + line.length) = line := by
  have above : (before ++ '\n' :: (line ++ rest)).take (before.length + 1 + line.length) =
      before ++ '\n' :: line := by
    rw [Nat.add_assoc, Nat.add_comm 1, List.take_length_add_append, List.take_succ_cons,
      List.take_left]
  rw [lineBefore, above, lastLine_eq_lastRun, lastRun_behind (by decide), lastRun_of_kept oneLine]

namespace Pattern

/-- A terminator ends a creation or a renaming exactly when its line asks for it, each kind is
extracted in the order of its terminators, and no other line has a part in it. -/
theorem extract_namings (text : Text) :
    (∀ kind ∈ namings,
      (∀ position row,
        (∃ occurrence ∈ kind.occurrences text,
          (Form.ofKind kind).EndsAt (mask text) occurrence position ∧ occurrence.row = row) ↔
        (mask text)[position]? = some terminator ∧
          Asks kind (lineBefore (mask text) position) row) ∧
      (∃ found : List (Nat × List Text), found.Pairwise (·.1 < ·.1) ∧
        (∀ position row, (position, row) ∈ found ↔
          (mask text)[position]? = some terminator ∧
            Asks kind (lineBefore (mask text) position) row) ∧
        (ofKind kind).extract text = .ok (found.map (·.2))) ∧
      ∀ before line rest, mask text = before ++ '\n' :: (line ++ terminator :: rest) →
        (∀ character ∈ line, Form.isPathChar character = true) → ∀ row,
          ((∃ occurrence ∈ kind.occurrences text,
            (Form.ofKind kind).EndsAt (mask text) occurrence (before.length + 1 + line.length) ∧
              occurrence.row = row) ↔ Asks kind line row)) ∧
    ∀ line, (∃ path newPath, Renames line path newPath) ↔
      ∃ rest first second, FirstBehind renameWord line rest ∧ Divides rest first second := by
  refine ⟨fun kind naming => ?_, exists_renames_iff⟩
  have seen : (ofKind kind).visibleText text = mask text :=
    Kind.visibleText_of_bodiless (hasBody_of_mem_namings naming) text
  have ends (position : Nat) (row : List Text) :=
    Kind.endsAt_iff (decidedBy_asks naming) text position row
  have extracted := Kind.exists_extract (decidedBy_asks naming) text
  simp only [seen, lastLine_segmentBefore, id] at ends extracted
  refine ⟨ends, extracted, fun before line rest whole oneLine row => ?_⟩
  have mark : (mask text)[before.length + 1 + line.length]? = some terminator := by
    rw [whole, Nat.add_assoc, Nat.add_comm 1]
    simp
  rw [ends, mark, whole, lineBefore_of_line oneLine]
  simp

example :
    (ofKind .rename).extract (Text.ofString "RENAME a\nRENAME RENAME b TO  TO c;") =
      .ok [[Text.ofString "RENAME b", Text.ofString "TO c"]] := by decide

end Pattern

end CommandFile
