import CommandFile.Proofs.Words
import CommandFile.Statement.Form

/-!
# Readings

What the reading of each form accepts, and what it captures.  A path is as short as
what follows it allows, and a quoted body reaches to the last quotation mark.
-/

namespace CommandFile.Form

def IsPath (text : Text) : Prop := text ≠ [] ∧ ∀ character ∈ text, isPathChar character = true

theorem IsPath.append {first second : Text}
    (oneLine : ∀ character ∈ first, isPathChar character = true) (isPath : IsPath second) :
    IsPath (first ++ second) := by
  refine ⟨by simp [isPath.1], fun character inside => ?_⟩
  rcases List.mem_append.mp inside with here | there
  · exact oneLine character here
  · exact isPath.2 character there

def IsOpening (opening : Text) : Prop :=
  ∃ blank gap, Text.isBlankChar blank = true ∧
    (∀ character ∈ gap, Text.isBlankChar character = true) ∧ gap.length ≤ longestGap ∧
    opening = blank :: (contentWord ++ gap ++ ['"'])

theorem wholePath?_eq_some_iff {text path : Text} :
    wholePath? text = some path ↔ text = path ∧ IsPath path := by
  unfold wholePath? IsPath
  split
  · next accepted =>
      rw [Option.some.injEq]
      constructor
      · rintro rfl
        simpa using accepted
      · exact fun same => same.1
  · next refused =>
      constructor
      · simp
      · rintro ⟨rfl, isPath⟩
        exact absurd (by simpa using isPath) refused

/-! ## Shortest paths -/

section ShortestPath

variable {α : Type} {close : Text → Option α}

theorem shortestPath?_sound {text path : Text} {closed : α}
    (found : shortestPath? close text = some (path, closed)) :
    ∃ rest, text = path ++ rest ∧ IsPath path ∧ close rest = some closed ∧
      ∀ first second, first ≠ [] → second ≠ [] → path = first ++ second →
        close (second ++ rest) = none := by
  induction text generalizing path with
  | nil => simp [shortestPath?] at found
  | cons character text ih =>
      rw [shortestPath?] at found
      split at found
      · next isPathChar =>
          split at found
          · next closed' closes =>
              obtain ⟨rfl, rfl⟩ : [character] = path ∧ closed' = closed := by simpa using found
              refine ⟨text, rfl, by simpa [IsPath] using isPathChar, closes, ?_⟩
              intro first second present presentToo split
              have short := congrArg List.length split
              have := List.length_pos_iff.mpr present
              have := List.length_pos_iff.mpr presentToo
              simp only [List.length_append, List.length_singleton] at short
              omega
          · next stays =>
              obtain ⟨⟨path', closed'⟩, later, same⟩ := Option.map_eq_some_iff.mp found
              obtain ⟨rfl, rfl⟩ : character :: path' = path ∧ closed' = closed := by
                simpa using same
              obtain ⟨rest, rfl, isPath, closes, shortest⟩ := ih later
              refine ⟨rest, rfl, ?_, closes, ?_⟩
              · exact ⟨by simp, by simpa [isPathChar] using isPath.2⟩
              · intro first second present presentToo split
                cases first with
                | nil => exact absurd rfl present
                | cons _ first =>
                    obtain ⟨-, split⟩ := List.cons.inj split
                    cases first with
                    | nil =>
                        obtain rfl : path' = second := split
                        exact stays
                    | cons other first =>
                        exact shortest (other :: first) second (by simp) presentToo split
      · simp at found

theorem shortestPath?_complete {path rest : Text} {closed : α} (isPath : IsPath path)
    (closes : close rest = some closed)
    (shortest : ∀ first second, first ≠ [] → second ≠ [] → path = first ++ second →
      close (second ++ rest) = none) :
    shortestPath? close (path ++ rest) = some (path, closed) := by
  induction path with
  | nil => exact absurd rfl isPath.1
  | cons character path ih =>
      have isPathChar := isPath.2 character (by simp)
      rw [List.cons_append, shortestPath?, if_pos isPathChar]
      cases path with
      | nil => simp [closes]
      | cons next path =>
          have stays : close (next :: path ++ rest) = none :=
            shortest [character] (next :: path) (by simp) (by simp) rfl
          have later := ih
            ⟨by simp, fun other inside => isPath.2 other (List.mem_cons_of_mem _ inside)⟩
            (fun first second _ presentToo split =>
              shortest (character :: first) second (by simp) presentToo (by simp [split]))
          rw [stays, later]
          rfl

theorem exists_shortestPath? {path rest : Text} {closed : α} (isPath : IsPath path)
    (closes : close rest = some closed) :
    ∃ found, shortestPath? close (path ++ rest) = some found := by
  induction path with
  | nil => exact absurd rfl isPath.1
  | cons character path ih =>
      rw [List.cons_append, shortestPath?, if_pos (isPath.2 character List.mem_cons_self)]
      cases path with
      | nil => exact ⟨_, by rw [List.nil_append, closes]⟩
      | cons next path =>
          obtain ⟨found, later⟩ := ih
            ⟨by simp, fun other inside => isPath.2 other (List.mem_cons_of_mem _ inside)⟩
          rw [later]
          split
          · exact ⟨_, rfl⟩
          · exact ⟨_, rfl⟩

end ShortestPath

/-! ## Paths -/

theorem readPath_eq_some_iff {inner : Text} {captures : List Capture} :
    readPath inner = some captures ↔ IsPath inner ∧ captures = [⟨.path, 0, inner⟩] := by
  simp only [readPath, Option.map_eq_some_iff, wholePath?_eq_some_iff]
  constructor
  · rintro ⟨path, ⟨rfl, isPath⟩, rfl⟩
    exact ⟨isPath, rfl⟩
  · rintro ⟨isPath, rfl⟩
    exact ⟨inner, ⟨rfl, isPath⟩, rfl⟩

theorem readPlainPath_eq_some_iff {keyword inner : Text} {captures : List Capture} :
    readPlainPath keyword inner = some captures ↔
      ¬ forceWord <:+ keyword ++ inner ∧ IsPath inner ∧ captures = [⟨.path, 0, inner⟩] := by
  rw [readPlainPath]
  split
  · next forced => simp [List.isSuffixOf_iff_suffix.mp forced]
  · next plain =>
      rw [List.isSuffixOf_iff_suffix] at plain
      simp [plain, readPath_eq_some_iff]

theorem forcedPath?_eq_some_iff {offset : Nat} {text : Text} {captures : List Capture} :
    forcedPath? offset text = some captures ↔
      ∃ path, text = path ++ forceWord ∧ IsPath path ∧ captures = [⟨.path, offset, path⟩] := by
  simp only [forcedPath?, Option.bind_eq_some_iff, Option.map_eq_some_iff,
    Text.before?_eq_some_iff, wholePath?_eq_some_iff]
  constructor
  · rintro ⟨_, rfl, path, ⟨rfl, isPath⟩, rfl⟩
    exact ⟨_, rfl, isPath, rfl⟩
  · rintro ⟨path, rfl, isPath, rfl⟩
    exact ⟨path, rfl, path, ⟨rfl, isPath⟩, rfl⟩

theorem forcedBehind?_eq_some_iff {word inner : Text} {captures : List Capture} :
    forcedBehind? word inner = some captures ↔
      ∃ path, inner = word ++ path ++ forceWord ∧ IsPath path ∧
        captures = [⟨.path, word.length, path⟩] := by
  simp only [forcedBehind?, Option.bind_eq_some_iff, Text.after?_eq_some_iff,
    forcedPath?_eq_some_iff]
  constructor
  · rintro ⟨_, rfl, path, rfl, isPath, rfl⟩
    exact ⟨path, by simp, isPath, rfl⟩
  · rintro ⟨path, rfl, isPath, rfl⟩
    exact ⟨path ++ forceWord, by simp, path, rfl, isPath, rfl⟩

theorem readForcedPath_sound {inner : Text} {captures : List Capture}
    (read : readForcedPath inner = some captures) :
    ∃ before path, inner = before ++ path ++ forceWord ∧ IsPath path ∧
      captures = [⟨.path, before.length, path⟩] := by
  simp only [readForcedPath, Option.or_eq_some_iff] at read
  rcases read with (named | ⟨-, named⟩) | ⟨-, bare⟩
  · obtain ⟨path, whole, isPath, rfl⟩ := forcedBehind?_eq_some_iff.mp named
    exact ⟨_, path, whole, isPath, rfl⟩
  · obtain ⟨path, whole, isPath, rfl⟩ := forcedBehind?_eq_some_iff.mp named
    exact ⟨_, path, whole, isPath, rfl⟩
  · obtain ⟨path, whole, isPath, rfl⟩ := forcedPath?_eq_some_iff.mp bare
    exact ⟨[], path, whole, isPath, rfl⟩

theorem readTwoPaths_shortest {inner : Text} {captures : List Capture}
    (read : readTwoPaths inner = some captures) :
    ∃ path newPath, inner = path ++ toWord ++ newPath ∧ IsPath path ∧ IsPath newPath ∧
      captures = [⟨.path, 0, path⟩, ⟨.newPath, path.length + toWord.length, newPath⟩] ∧
      ∀ first second, first ≠ [] → second ≠ [] → path = first ++ second →
        (Text.after? (second ++ (toWord ++ newPath)) toWord).bind wholePath? = none := by
  obtain ⟨⟨path, newPath⟩, found, rfl⟩ := Option.map_eq_some_iff.mp read
  obtain ⟨rest, rfl, isPath, closes, shortest⟩ := shortestPath?_sound found
  obtain ⟨behind, after, whole⟩ := Option.bind_eq_some_iff.mp closes
  obtain ⟨rfl, isNewPath⟩ := wholePath?_eq_some_iff.mp whole
  obtain rfl := Text.after?_eq_some_iff.mp after
  exact ⟨path, behind, by simp, isPath, isNewPath, rfl, shortest⟩

theorem readTwoPaths_sound {inner : Text} {captures : List Capture}
    (read : readTwoPaths inner = some captures) :
    ∃ path newPath, inner = path ++ toWord ++ newPath ∧ IsPath path ∧ IsPath newPath ∧
      captures =
        [⟨.path, 0, path⟩, ⟨.newPath, path.length + toWord.length, newPath⟩] := by
  obtain ⟨path, newPath, whole, isPath, isNewPath, same, -⟩ := readTwoPaths_shortest read
  exact ⟨path, newPath, whole, isPath, isNewPath, same⟩

theorem newPath_behind_toWord {newPath : Text} (isNewPath : IsPath newPath) :
    ((toWord ++ newPath).after? toWord).bind wholePath? = some newPath := by
  rw [Text.after?_append]
  exact wholePath?_eq_some_iff.mpr ⟨rfl, isNewPath⟩

theorem exists_readTwoPaths {path newPath : Text} (isPath : IsPath path)
    (isNewPath : IsPath newPath) :
    ∃ captures, readTwoPaths (path ++ toWord ++ newPath) = some captures := by
  let close (rest : Text) : Option Text := (rest.after? toWord).bind wholePath?
  have closes : close (toWord ++ newPath) = some newPath := newPath_behind_toWord isNewPath
  obtain ⟨found, shortest⟩ := exists_shortestPath? isPath closes
  rw [List.append_assoc, readTwoPaths, shortest]
  exact ⟨_, rfl⟩

theorem readTwoPaths_complete {path newPath : Text} (isPath : IsPath path)
    (isNewPath : IsPath newPath)
    (shortest : ∀ first second, first ≠ [] → second ≠ [] → path = first ++ second →
      ¬ toWord <+: second ++ toWord ++ newPath) :
    readTwoPaths (path ++ toWord ++ newPath) =
      some [⟨.path, 0, path⟩, ⟨.newPath, path.length + toWord.length, newPath⟩] := by
  have found : shortestPath? (fun rest => (rest.after? toWord).bind wholePath?)
      (path ++ (toWord ++ newPath)) = some (path, newPath) := by
    refine shortestPath?_complete isPath (newPath_behind_toWord isNewPath) ?_
    intro first second present presentToo split
    have stays := shortest first second present presentToo split
    rw [List.append_assoc, ← Text.after?_eq_none_iff] at stays
    simp only [stays, Option.bind_none]
  rw [List.append_assoc, readTwoPaths, found]
  rfl

/-! ## Bodies -/

theorem quotedBody?_eq_some_iff {text body : Text} {offset : Nat} :
    quotedBody? text = some (offset, body) ↔
      ∃ gap, (∀ character ∈ gap, Text.isBlankChar character = true) ∧
        gap.length ≤ longestGap ∧ text = gap ++ '"' :: (body ++ ['"']) ∧
        offset = gap.length + 1 := by
  constructor
  · intro found
    simp only [quotedBody?] at found
    split at found
    · next short =>
        split at found
        · next rest quoted =>
            split at found
            · next ends =>
                obtain ⟨body', rfl⟩ := List.getLast?_eq_some_iff.mp ends
                have whole := List.prefix_iff_eq_append.mp
                  (List.takeWhile_prefix (l := text) Text.isBlankChar)
                rw [quoted] at whole
                obtain ⟨rfl, rfl⟩ : _ = offset ∧ body' = body := by simpa using found
                exact ⟨_, List.all_eq_true.mp List.all_takeWhile, short, whole.symm, rfl⟩
            · simp at found
        · simp at found
    · simp at found
  · rintro ⟨gap, blank, short, rfl, rfl⟩
    have taken : (gap ++ '"' :: (body ++ ['"'])).takeWhile Text.isBlankChar = gap := by
      rw [List.takeWhile_append_of_pos blank, List.takeWhile_cons_of_neg (by decide),
        List.append_nil]
    simp only [quotedBody?, taken, if_pos short, List.drop_left]
    simp

theorem announcedBody?_eq_some_iff {text body : Text} {offset : Nat} :
    announcedBody? text = some (offset, body) ↔
      ∃ opening, IsOpening opening ∧ text = opening ++ body ++ ['"'] ∧
        offset = opening.length := by
  constructor
  · intro found
    cases text with
    | nil => simp [announcedBody?] at found
    | cons blank rest =>
        rw [announcedBody?] at found
        split at found
        · next isBlank =>
            obtain ⟨⟨offset', body'⟩, quoted, same⟩ := Option.map_eq_some_iff.mp found
            obtain ⟨behind, after, quoted⟩ := Option.bind_eq_some_iff.mp quoted
            obtain ⟨gap, gapBlank, short, rfl, rfl⟩ := quotedBody?_eq_some_iff.mp quoted
            obtain ⟨rfl, rfl⟩ := Prod.mk.inj same
            refine ⟨_, ⟨blank, gap, isBlank, gapBlank, short, rfl⟩, ?_, ?_⟩
            · simp [Text.after?_eq_some_iff.mp after]
            · simp only [List.length_cons, List.length_append, List.length_nil]
              omega
        · simp at found
  · rintro ⟨_, ⟨blank, gap, isBlank, gapBlank, short, rfl⟩, rfl, rfl⟩
    have quoted : quotedBody? (gap ++ '"' :: (body ++ ['"'])) = some (gap.length + 1, body) :=
      quotedBody?_eq_some_iff.mpr ⟨gap, gapBlank, short, rfl, rfl⟩
    simp only [List.cons_append, List.append_assoc, announcedBody?, if_pos isBlank,
      Text.after?_append, Option.bind_some]
    simp only [List.nil_append, quoted, Option.map_some,
      List.length_cons, List.length_append, List.length_nil]
    congr 2
    omega

theorem announcedBody?_opening {opening : Text} (isOpening : IsOpening opening) (body : Text) :
    announcedBody? (opening ++ body ++ ['"']) = some (opening.length, body) :=
  announcedBody?_eq_some_iff.mpr ⟨opening, isOpening, rfl, rfl⟩

theorem readContent_shortest {inner : Text} {captures : List Capture}
    (read : readContent inner = some captures) :
    ∃ blank path opening body, inner = blank :: (path ++ opening ++ body ++ ['"']) ∧
      Text.isBlankChar blank = true ∧ IsPath path ∧ IsOpening opening ∧
      captures = [⟨.path, 1, path⟩, ⟨.body, 1 + path.length + opening.length, body⟩] ∧
      ∀ first second, first ≠ [] → second ≠ [] → path = first ++ second →
        announcedBody? (second ++ (opening ++ body ++ ['"'])) = none := by
  cases inner with
  | nil => simp [readContent] at read
  | cons blank rest =>
      rw [readContent] at read
      split at read
      · next isBlank =>
          obtain ⟨⟨path, offset, body⟩, found, rfl⟩ := Option.map_eq_some_iff.mp read
          obtain ⟨behind, rfl, isPath, closes, shortest⟩ := shortestPath?_sound found
          obtain ⟨opening, isOpening, rfl, rfl⟩ := announcedBody?_eq_some_iff.mp closes
          exact ⟨blank, path, opening, body, by simp, isBlank, isPath, isOpening, rfl, shortest⟩
      · simp at read

theorem readContent_sound {inner : Text} {captures : List Capture}
    (read : readContent inner = some captures) :
    ∃ blank path opening body, inner = blank :: (path ++ opening ++ body ++ ['"']) ∧
      Text.isBlankChar blank = true ∧ IsPath path ∧ IsOpening opening ∧
      captures = [⟨.path, 1, path⟩, ⟨.body, 1 + path.length + opening.length, body⟩] := by
  obtain ⟨blank, path, opening, body, whole, isBlank, isPath, isOpening, same, -⟩ :=
    readContent_shortest read
  exact ⟨blank, path, opening, body, whole, isBlank, isPath, isOpening, same⟩

theorem exists_readContent {blank : Char} {path opening : Text}
    (isBlank : Text.isBlankChar blank = true) (isPath : IsPath path)
    (isOpening : IsOpening opening) (body : Text) :
    ∃ captures, readContent (blank :: (path ++ (opening ++ body ++ ['"']))) = some captures := by
  obtain ⟨found, shortest⟩ := exists_shortestPath? isPath (announcedBody?_opening isOpening body)
  rw [readContent, if_pos isBlank, shortest]
  exact ⟨_, rfl⟩

theorem readContent_complete {blank : Char} {path opening body : Text}
    (isBlank : Text.isBlankChar blank = true) (isPath : IsPath path)
    (isOpening : IsOpening opening)
    (shortest : ∀ first second, first ≠ [] → second ≠ [] → path = first ++ second →
      announcedBody? (second ++ (opening ++ body ++ ['"'])) = none) :
    readContent (blank :: (path ++ (opening ++ body ++ ['"']))) =
      some [⟨.path, 1, path⟩, ⟨.body, 1 + path.length + opening.length, body⟩] := by
  have closes := announcedBody?_opening isOpening body
  rw [readContent, if_pos isBlank, shortestPath?_complete isPath closes shortest]
  rfl

theorem announcedBody?_of_not_prefix {blank : Char} {rest : Text}
    (unannounced : ¬ contentWord <+: rest) : announcedBody? (blank :: rest) = none := by
  rw [Option.eq_none_iff_forall_ne_some]
  rintro ⟨offset, body⟩ found
  obtain ⟨opening, ⟨space, gap, -, -, -, rfl⟩, whole, -⟩ := announcedBody?_eq_some_iff.mp found
  refine unannounced ⟨gap ++ '"' :: (body ++ ['"']), ?_⟩
  simpa using (List.cons.inj whole).2.symm

/-! ## Slots -/

@[simp] theorem slots_ne_nil (kind : Kind) : (ofKind kind).slots ≠ [] := by
  cases kind <;> exact List.cons_ne_nil _ _

theorem slots_of_read {kind : Kind} {inner : Text} {captures : List Capture}
    (read : (ofKind kind).read inner = some captures) :
    captures.map (·.slot) = (ofKind kind).slots := by
  cases kind with
  | createFolder =>
      obtain ⟨-, rfl⟩ := readPath_eq_some_iff.mp read
      rfl
  | createFile =>
      obtain ⟨-, rfl⟩ := readPath_eq_some_iff.mp read
      rfl
  | write =>
      obtain ⟨_, _, _, _, -, -, -, -, rfl⟩ := readContent_sound read
      rfl
  | append =>
      obtain ⟨_, _, _, _, -, -, -, -, rfl⟩ := readContent_sound read
      rfl
  | rename =>
      obtain ⟨_, _, -, -, -, rfl⟩ := readTwoPaths_sound read
      rfl
  | deleteFile =>
      obtain ⟨-, -, rfl⟩ := readPlainPath_eq_some_iff.mp read
      rfl
  | deleteFolder =>
      obtain ⟨-, -, rfl⟩ := readPlainPath_eq_some_iff.mp read
      rfl
  | deleteForce =>
      obtain ⟨_, _, -, -, rfl⟩ := readForcedPath_sound read
      rfl

end CommandFile.Form
