import CommandFile.Proofs.Endings
import CommandFile.Statement.Written

/-!
# Deletions

A deletion lies on the line that its terminator ends, and the line alone decides which deletions
end there.  A line that ends in the forcing word is a forced deletion or none, and every other line
is a plain one or none, so a terminator never ends a plain deletion and a forced one.
-/

namespace CommandFile

/-! ## Deletions in a line -/

def deleteWord : Text := Text.ofString "DELETE "

def leftBehind? (word target : Text) : Option Text := (target.after? word).filter (· ≠ [])

/-- Takes away what a forced deletion says that it deletes, if something is left. -/
def unnamed (target : Text) : Text :=
  ((leftBehind? (Text.ofString "FILE ") target).or
    (leftBehind? (Text.ofString "FOLDER ") target)).getD target

/-- A line that ends in the forcing word deletes by force what stands between the first keyword
that leaves something and that word. -/
def DeletesByForce (line path : Text) : Prop :=
  ∃ before target, line = before ++ deleteWord ++ target ++ Form.forceWord ∧ target ≠ [] ∧
    (∀ earlier other, line = earlier ++ deleteWord ++ other ++ Form.forceWord → other ≠ [] →
      before.length ≤ earlier.length) ∧
    path = (unnamed target).trim

def DeletesPlainly (keyword line path : Text) : Prop :=
  ¬ Form.forceWord <:+ line ∧ ∃ before rest, line = before ++ keyword ++ rest ∧ rest ≠ [] ∧
    (∀ earlier other, line = earlier ++ keyword ++ other → before.length ≤ earlier.length) ∧
    path = rest.trim

def Deletes : Kind → Text → Text → Prop
  | .deleteForce, line, path => DeletesByForce line path
  | .deleteFile, line, path => DeletesPlainly (Text.ofString "DELETE FILE ") line path
  | .deleteFolder, line, path => DeletesPlainly (Text.ofString "DELETE FOLDER ") line path
  | _, _, _ => False

namespace Form

/-! ### Plain deletions -/

section Plain

variable {form : Form} (plain : form.read = readPlainPath form.keyword)
include plain

theorem read_plain (inner : Text) (captures : List Capture) :
    form.read inner = some captures ↔
      ¬ forceWord <:+ form.keyword ++ inner ∧ IsPath inner ∧ captures = [⟨.path, 0, inner⟩] := by
  rw [plain]
  exact readPlainPath_eq_some_iff

theorem read_plain_ne_none {inner : Text} :
    form.read inner ≠ none ↔ ¬ forceWord <:+ form.keyword ++ inner ∧ IsPath inner := by
  simp [Option.ne_none_iff_exists', read_plain plain]

theorem deletesPlainly_iff_readsFirst (long : forceWord.length ≤ form.keyword.length)
    {line path : Text} (oneLine : ∀ character ∈ line, isPathChar character = true) :
    DeletesPlainly form.keyword line path ↔
      ∃ inner captures, form.ReadsFirst line inner captures ∧
        captures.map (·.text.trim) = [path] := by
  constructor
  · rintro ⟨unforced, before, rest, whole, some, first, rfl⟩
    have isPath : IsPath rest :=
      ⟨some, fun character inside => oneLine character (by simp [whole, inside])⟩
    have unforcedHere : ¬ forceWord <:+ form.keyword ++ rest := fun forced =>
      unforced (forced.trans ⟨before, by simp [whole]⟩)
    exact ⟨rest, _, ⟨(read_plain plain _ _).mpr ⟨unforcedHere, isPath, rfl⟩, before, whole,
      fun earlier other split _ => first earlier other split⟩, rfl⟩
  · rintro ⟨inner, captures, reads, same⟩
    obtain ⟨unforcedHere, isPath, rfl⟩ := (read_plain plain _ _).mp reads.1
    have unforced : ¬ forceWord <:+ line := by
      intro forced
      obtain ⟨before, whole, -⟩ := reads.2
      have ending : form.keyword ++ inner <:+ line := ⟨before, by simp [whole]⟩
      refine unforcedHere (List.suffix_of_suffix_length_le forced ending ?_)
      rw [List.length_append]
      omega
    have further (other : Text) (longer : inner <:+ other)
        (inside : form.keyword ++ other <:+ line) : form.read other ≠ none := by
      refine (read_plain_ne_none plain).mpr ⟨fun forced => unforced (forced.trans inside), ?_, ?_⟩
      · rintro rfl
        exact isPath.1 (List.suffix_nil.mp longer)
      · exact fun character member =>
          oneLine character (inside.mem (List.mem_append_right _ member))
    obtain ⟨⟨before, whole, first⟩, -⟩ := (readsFirst_iff_firstBehind further).mp reads
    exact ⟨unforced, before, inner, whole, isPath.1, first, (List.singleton_inj.mp same).symm⟩

end Plain

/-! ### Forced deletions -/

theorem forcedBehind?_target {target : Text} (isPath : IsPath target) (word : Text) :
    forcedBehind? word (target ++ forceWord) =
      (leftBehind? word target).map fun rest => [⟨.path, word.length, rest⟩] := by
  ext captures
  simp only [forcedBehind?_eq_some_iff, Option.map_eq_some_iff, leftBehind?,
    Option.filter_eq_some_iff, Text.after?_eq_some_iff, decide_eq_true_eq]
  constructor
  · rintro ⟨path, whole, isPathToo, rfl⟩
    exact ⟨path, ⟨List.append_cancel_right whole, isPathToo.1⟩, rfl⟩
  · rintro ⟨path, ⟨rfl, some⟩, rfl⟩
    exact ⟨path, rfl, ⟨some, fun character inside => isPath.2 character (by simp [inside])⟩, rfl⟩

theorem readForcedPath_target {target : Text} (isPath : IsPath target) :
    ∃ offset, readForcedPath (target ++ forceWord) = some [⟨.path, offset, unnamed target⟩] := by
  have bare : forcedPath? 0 (target ++ forceWord) = some [⟨.path, 0, target⟩] :=
    forcedPath?_eq_some_iff.mpr ⟨target, rfl, isPath, rfl⟩
  rw [readForcedPath, forcedBehind?_target isPath, forcedBehind?_target isPath, bare, unnamed]
  cases leftBehind? (Text.ofString "FILE ") target with
  | some rest => exact ⟨_, rfl⟩
  | none =>
      cases leftBehind? (Text.ofString "FOLDER ") target with
      | some rest => exact ⟨_, rfl⟩
      | none => exact ⟨0, rfl⟩

theorem exists_target {inner : Text} {captures : List Capture}
    (read : readForcedPath inner = some captures) :
    ∃ target, inner = target ++ forceWord ∧ IsPath target := by
  simp only [readForcedPath, Option.or_eq_some_iff] at read
  rcases read with (named | ⟨-, named⟩) | ⟨-, bare⟩
  · obtain ⟨path, whole, isPath, -⟩ := forcedBehind?_eq_some_iff.mp named
    exact ⟨_, whole, isPath.append (List.all_eq_true.mp (by decide))⟩
  · obtain ⟨path, whole, isPath, -⟩ := forcedBehind?_eq_some_iff.mp named
    exact ⟨_, whole, isPath.append (List.all_eq_true.mp (by decide))⟩
  · obtain ⟨path, whole, isPath, -⟩ := forcedPath?_eq_some_iff.mp bare
    exact ⟨path, whole, isPath⟩

theorem keyword_deleteForce : deleteForce.keyword = deleteWord := rfl

theorem readsFirst_of_deletesByForce {line path : Text}
    (oneLine : ∀ character ∈ line, isPathChar character = true)
    (deletes : DeletesByForce line path) :
    ∃ inner captures, deleteForce.ReadsFirst line inner captures ∧
      captures.map (·.text.trim) = [path] := by
  obtain ⟨before, target, whole, some, first, rfl⟩ := deletes
  have isPath : IsPath target :=
    ⟨some, fun character inside => oneLine character (by simp [whole, inside])⟩
  obtain ⟨offset, read⟩ := readForcedPath_target isPath
  refine ⟨target ++ forceWord, _, ⟨read, before, by simp [whole, keyword_deleteForce], ?_⟩, rfl⟩
  intro earlier other split reads
  obtain ⟨captures, readOther⟩ := Option.ne_none_iff_exists'.mp reads
  obtain ⟨target, rfl, isPath⟩ := exists_target readOther
  exact first earlier target (by simp [split, keyword_deleteForce]) isPath.1

theorem deletesByForce_of_readsFirst {line inner : Text} {captures : List Capture}
    (oneLine : ∀ character ∈ line, isPathChar character = true)
    (reads : deleteForce.ReadsFirst line inner captures) :
    ∃ path, captures.map (·.text.trim) = [path] ∧ DeletesByForce line path := by
  obtain ⟨read, before, whole, first⟩ := reads
  obtain ⟨target, rfl, isPath⟩ := exists_target read
  obtain ⟨offset, readAgain⟩ := readForcedPath_target isPath
  obtain rfl := Option.some.inj (read.symm.trans readAgain)
  refine ⟨_, rfl, before, target, by simp [whole, keyword_deleteForce], isPath.1, ?_, rfl⟩
  intro earlier other split some
  have isPathToo : IsPath other :=
    ⟨some, fun character inside => oneLine character (by simp [split, inside])⟩
  obtain ⟨_, readOther⟩ := readForcedPath_target isPathToo
  refine first earlier (other ++ forceWord) (by simp [split, keyword_deleteForce]) ?_
  exact Option.ne_none_iff_exists'.mpr ⟨_, readOther⟩

/-! ### All deletions -/

theorem oneLine_readPlainPath (form : Form) (plain : form.read = readPlainPath form.keyword)
    (oneLine : ∀ character ∈ form.keyword, isPathChar character = true) : form.OneLine := by
  intro inner captures read
  obtain ⟨-, isPath, -⟩ := (read_plain plain inner captures).mp read
  exact (isPath.append oneLine).2

theorem oneLine_deleteForce : deleteForce.OneLine := by
  intro inner captures read
  obtain ⟨target, rfl, isPath⟩ := exists_target read
  rw [← List.append_assoc]
  exact List.forall_mem_append.mpr
    ⟨(isPath.append (List.all_eq_true.mp (by decide))).2, List.all_eq_true.mp (by decide)⟩

end Form

def deletions : List Kind := [.deleteFile, .deleteFolder, .deleteForce]

theorem oneLine_of_mem_deletions {kind : Kind} (deleting : kind ∈ deletions) :
    (Form.ofKind kind).OneLine := by
  rcases (by simpa [deletions] using deleting) with rfl | rfl | rfl
  · exact Form.oneLine_readPlainPath Form.deleteFile rfl (List.all_eq_true.mp (by decide))
  · exact Form.oneLine_readPlainPath Form.deleteFolder rfl (List.all_eq_true.mp (by decide))
  · exact Form.oneLine_deleteForce

theorem deletes_iff_readsFirst {kind : Kind} (deleting : kind ∈ deletions) {line path : Text}
    (oneLine : ∀ character ∈ line, Form.isPathChar character = true) :
    Deletes kind line path ↔
      ∃ inner captures, (Form.ofKind kind).ReadsFirst line inner captures ∧
        captures.map (·.text.trim) = [path] := by
  rcases (by simpa [deletions] using deleting) with rfl | rfl | rfl
  · have plain : Form.deleteFile.read = Form.readPlainPath Form.deleteFile.keyword := rfl
    exact Form.deletesPlainly_iff_readsFirst plain (by decide) oneLine
  · have plain : Form.deleteFolder.read = Form.readPlainPath Form.deleteFolder.keyword := rfl
    exact Form.deletesPlainly_iff_readsFirst plain (by decide) oneLine
  · constructor
    · exact Form.readsFirst_of_deletesByForce oneLine
    · rintro ⟨inner, captures, reads, same⟩
      obtain ⟨other, sameToo, deletes⟩ := Form.deletesByForce_of_readsFirst oneLine reads
      obtain rfl := List.singleton_inj.mp (same.symm.trans sameToo)
      exact deletes

theorem length_slots_of_mem_deletions {kind : Kind} (deleting : kind ∈ deletions) :
    (Form.ofKind kind).slots.length = 1 := by
  revert deleting
  cases kind <;> decide

theorem hasBody_of_mem_deletions {kind : Kind} (deleting : kind ∈ deletions) :
    (Pattern.ofKind kind).hasBody = false := by
  revert deleting
  cases kind <;> decide

theorem decidedBy_deletes {kind : Kind} (deleting : kind ∈ deletions) :
    (Form.ofKind kind).DecidedBy (fun path => [path])
      fun segment path => Deletes kind (lastLine segment) path where
  anchored := Form.anchored_ofKind kind
  injective _ _ same := List.singleton_inj.mp same
  exists_item found := by
    obtain ⟨before, inner, captures, -, read, rfl⟩ := Form.found?_sound found
    have single := length_slots_of_mem_deletions deleting
    rw [← Form.slots_of_read read, List.length_map] at single
    obtain ⟨capture, rfl⟩ := List.length_eq_one_iff.mp single
    exact ⟨_, rfl⟩
  found_iff _ path := by
    rw [(Form.anchored_ofKind kind).found_iff_readsFirst,
      deletes_iff_readsFirst deleting fun _ => isPathChar_of_mem_lastLine]
    simp only [(oneLine_of_mem_deletions deleting).readsFirst_lastLine]

theorem exists_path_of_mem_occurrences {kind : Kind} (deleting : kind ∈ deletions) {text : Text}
    {occurrence : Occurrence} (inside : occurrence ∈ kind.occurrences text) :
    ∃ path, occurrence.row = [path] := by
  have row : occurrence.row ∈ kind.rows text := List.mem_map_of_mem inside
  exact List.length_eq_one_iff.mp
    ((kind.length_of_mem_rows row).trans (length_slots_of_mem_deletions deleting))

/-! ## Deletions in a document -/

theorem exists_deletesByForce_iff (line : Text) :
    (∃ path, DeletesByForce line path) ↔
      ∃ before target, target ≠ [] ∧ line = before ++ deleteWord ++ target ++ Form.forceWord := by
  constructor
  · rintro ⟨path, before, target, whole, some, -⟩
    exact ⟨before, target, some, whole⟩
  · rintro ⟨before, target, some, whole⟩
    have present : ∃ parts : Text × Text, parts.2 ≠ [] ∧
        line = parts.1 ++ deleteWord ++ parts.2 ++ Form.forceWord :=
      ⟨(before, target), some, whole⟩
    obtain ⟨⟨first, rest⟩, ⟨left, split⟩, least⟩ := exists_shortest present (·.1.length)
    exact ⟨_, first, rest, split, left,
      fun earlier other splitToo leftToo => least (earlier, other) ⟨leftToo, splitToo⟩, rfl⟩

theorem not_deletesPlainly_of_byForce {line path : Text} (forced : DeletesByForce line path)
    (keyword other : Text) : ¬ DeletesPlainly keyword line other := by
  obtain ⟨before, target, whole, -⟩ := forced
  exact fun plain => plain.1 ⟨_, whole.symm⟩

namespace Pattern

/-- A terminator ends a deletion exactly when its line deletes, each kind is extracted in the
order of its terminators, and no terminator ends a forced deletion and a plain one. -/
theorem extract_deletions (text : Text) :
    (∀ kind ∈ deletions,
      (∀ position path,
        (∃ occurrence ∈ kind.occurrences text,
          (Form.ofKind kind).EndsAt (mask text) occurrence position ∧ occurrence.row = [path]) ↔
        (mask text)[position]? = some terminator ∧
          Deletes kind (lineBefore (mask text) position) path) ∧
      ∃ found : List (Nat × Text), found.Pairwise (·.1 < ·.1) ∧
        (∀ position path, (position, path) ∈ found ↔
          (mask text)[position]? = some terminator ∧
            Deletes kind (lineBefore (mask text) position) path) ∧
        (ofKind kind).extract text = .ok (found.map fun item => [item.2])) ∧
    (∀ line, (∃ path, Deletes .deleteForce line path) ↔
      ∃ before target, target ≠ [] ∧ line = before ++ deleteWord ++ target ++ Form.forceWord) ∧
    ∀ plain ∈ [Kind.deleteFile, .deleteFolder], ∀ occurrence ∈ plain.occurrences text,
      ∀ forced ∈ Kind.deleteForce.occurrences text, ∀ position,
        (Form.ofKind plain).EndsAt (mask text) occurrence position →
          ¬ Form.deleteForce.EndsAt (mask text) forced position := by
  have seen (kind : Kind) (deleting : kind ∈ deletions) :
      (ofKind kind).visibleText text = mask text :=
    Kind.visibleText_of_bodiless (hasBody_of_mem_deletions deleting) text
  have decided (kind : Kind) (deleting : kind ∈ deletions) (position : Nat) (path : Text) :
      (∃ occurrence ∈ kind.occurrences text,
        (Form.ofKind kind).EndsAt (mask text) occurrence position ∧ occurrence.row = [path]) ↔
      (mask text)[position]? = some terminator ∧
        Deletes kind (lineBefore (mask text) position) path := by
    have ends := Kind.endsAt_iff (decidedBy_deletes deleting) text position path
    rwa [seen kind deleting, lastLine_segmentBefore] at ends
  refine ⟨fun kind deleting => ⟨decided kind deleting, ?_⟩, exists_deletesByForce_iff, ?_⟩
  · have extracted := Kind.exists_extract (decidedBy_deletes deleting) text
    simpa only [seen kind deleting, lastLine_segmentBefore] using extracted
  · intro plain isPlain occurrence inside forced insideToo position ends endsToo
    have deleting : plain ∈ deletions := by
      rcases List.mem_pair.mp isPlain with rfl | rfl <;> decide
    have deletingToo : Kind.deleteForce ∈ deletions := by decide
    obtain ⟨path, row⟩ := exists_path_of_mem_occurrences deleting inside
    obtain ⟨other, rowToo⟩ := exists_path_of_mem_occurrences deletingToo insideToo
    obtain ⟨-, deletes⟩ :=
      (decided plain deleting position path).mp ⟨occurrence, inside, ends, row⟩
    obtain ⟨-, byForce⟩ :=
      (decided .deleteForce deletingToo position other).mp ⟨forced, insideToo, endsToo, rowToo⟩
    rcases List.mem_pair.mp isPlain with rfl | rfl
    · exact not_deletesPlainly_of_byForce byForce _ _ deletes
    · exact not_deletesPlainly_of_byForce byForce _ _ deletes

example :
    (ofKind .deleteForce).extract (Text.ofString "DELETE FILE  FORCE;DELETE FILE a;") =
      .ok [[Text.ofString "FILE"]] := by decide

end Pattern

end CommandFile
