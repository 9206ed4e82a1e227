import CommandFile.Proofs.Endings

/-!
# Statements with a body

A statement with a body ends in a quotation mark, and its body reaches back to the quotation mark
of the first announcement behind the first keyword that has one behind it.  Keywords without an
announcement hide nothing, and a path takes in no announcement, unless it would be empty without
it.
-/

namespace CommandFile

/-! ## Announced bodies -/

/-- A blank, a path on one line, what announces a body, and the body up to the last character,
which is a quotation mark. -/
def Announces (inner path body : Text) : Prop :=
  ∃ blank opening, inner = blank :: (path ++ opening ++ body ++ ['"']) ∧
    Text.isBlankChar blank = true ∧ path ≠ [] ∧ '\n' ∉ path ∧ Form.IsOpening opening

def AnnouncesFirst (inner path body : Text) : Prop :=
  Announces inner path body ∧ ∀ other others, Announces inner other others →
    path.length ≤ other.length

/-- A segment carries what is announced behind the first keyword that has an announcement behind
it. -/
def CarriesBehind (keyword segment path body : Text) : Prop :=
  ∃ before inner own content, segment = before ++ keyword ++ inner ∧
    AnnouncesFirst inner own content ∧
    (∀ earlier other, segment = earlier ++ keyword ++ other →
      (∃ path body, Announces other path body) → before.length ≤ earlier.length) ∧
    path = own.trim ∧ body = content.trim

def Carries : Kind → Text → Text → Text → Prop
  | .write, segment, path, body => CarriesBehind (Text.ofString "WRITE TO") segment path body
  | .append, segment, path, body => CarriesBehind (Text.ofString "APPEND TO") segment path body
  | _, _, _, _ => False

theorem Announces.isPath {inner path body : Text} (announces : Announces inner path body)
    (free : terminator ∉ inner) : Form.IsPath path := by
  obtain ⟨blank, opening, rfl, -, some, oneLine, -⟩ := announces
  refine ⟨some, fun character inside => ?_⟩
  have unbroken : character ≠ '\n' := by
    rintro rfl
    exact oneLine inside
  have unended : character ≠ terminator := by
    rintro rfl
    exact free (by simp [inside])
  simp [Form.isPathChar, unbroken, unended]

theorem Announces.body_unique {inner path body other : Text} (announces : Announces inner path body)
    (announcesToo : Announces inner path other) : body = other := by
  obtain ⟨blank, opening, rfl, -, -, -, isOpening⟩ := announces
  obtain ⟨blankToo, openingToo, whole, -, -, -, isOpeningToo⟩ := announcesToo
  have read := Form.announcedBody?_opening isOpening body
  simp only [List.cons.injEq, List.append_assoc, List.append_cancel_left_eq] at whole read
  rw [whole.2, ← List.append_assoc, Form.announcedBody?_opening isOpeningToo] at read
  exact (Prod.mk.inj (Option.some.inj read)).2.symm

theorem AnnouncesFirst.unique {inner path body other others : Text}
    (announces : AnnouncesFirst inner path body)
    (announcesToo : AnnouncesFirst inner other others) : path = other ∧ body = others := by
  have same := Nat.le_antisymm (announces.2 _ _ announcesToo.1) (announcesToo.2 _ _ announces.1)
  obtain ⟨blank, opening, whole, -⟩ := announces.1
  obtain ⟨blankToo, openingToo, wholeToo, -⟩ := announcesToo.1
  have equal := whole.symm.trans wholeToo
  simp only [List.cons.injEq, List.append_assoc] at equal
  obtain ⟨rfl, -⟩ := List.append_inj equal.2 same
  exact ⟨rfl, announces.1.body_unique announcesToo.1⟩

theorem exists_announcesFirst_iff (inner : Text) :
    (∃ path body, AnnouncesFirst inner path body) ↔ ∃ path body, Announces inner path body := by
  constructor
  · rintro ⟨path, body, announces, -⟩
    exact ⟨path, body, announces⟩
  · rintro ⟨path, body, announces⟩
    have present : ∃ parts : Text × Text, Announces inner parts.1 parts.2 :=
      ⟨(path, body), announces⟩
    obtain ⟨parts, announcesToo, least⟩ := exists_shortest present (·.1.length)
    exact ⟨parts.1, parts.2, announcesToo, fun other others => least (other, others)⟩

theorem exists_carriesBehind_iff (keyword segment : Text) :
    (∃ path body, CarriesBehind keyword segment path body) ↔
      ∃ before inner path body, segment = before ++ keyword ++ inner ∧
        Announces inner path body := by
  constructor
  · rintro ⟨_, _, before, inner, own, content, whole, announces, -⟩
    exact ⟨before, inner, own, content, whole, announces.1⟩
  · rintro ⟨before, inner, path, body, whole, announces⟩
    have present : ∃ parts : Text × Text, segment = parts.1 ++ keyword ++ parts.2 ∧
        ∃ path body, Announces parts.2 path body := ⟨(before, inner), whole, path, body, announces⟩
    obtain ⟨parts, ⟨wholeToo, announced⟩, least⟩ := exists_shortest present (·.1.length)
    obtain ⟨own, content, announcesFirst⟩ := (exists_announcesFirst_iff _).mpr announced
    exact ⟨_, _, parts.1, parts.2, own, content, wholeToo, announcesFirst,
      fun earlier other split announcedToo => least (earlier, other) ⟨split, announcedToo⟩,
      rfl, rfl⟩

/-! ## Reading a body -/

namespace Form

variable {form : Form} {inner segment : Text}

theorem announces_of_readContent {captures : List Capture}
    (read : readContent inner = some captures) (free : terminator ∉ inner) :
    ∃ path body, AnnouncesFirst inner path body ∧ captures.map (·.text) = [path, body] := by
  obtain ⟨blank, path, opening, body, rfl, isBlank, isPath, isOpening, rfl, shortest⟩ :=
    readContent_shortest read
  have oneLine : '\n' ∉ path := fun inside => by simpa [isPathChar] using isPath.2 _ inside
  refine ⟨path, body, ⟨⟨blank, opening, rfl, isBlank, isPath.1, oneLine, isOpening⟩, ?_⟩, rfl⟩
  rintro other others ⟨blankToo, openingToo, whole, -, some, -, isOpeningToo⟩
  by_contra shorter
  simp only [List.cons.injEq, List.append_assoc] at whole
  have ahead : other <+: path :=
    List.prefix_of_prefix_length_le ⟨_, whole.2.symm⟩ ⟨_, rfl⟩ (by omega)
  obtain ⟨more, rfl⟩ := ahead
  have someMore : more ≠ [] := by
    rintro rfl
    simp at shorter
  have stays := shortest other more some someMore rfl
  simp only [List.append_assoc, List.append_cancel_left_eq] at whole stays
  rw [whole.2, ← List.append_assoc, announcedBody?_opening isOpeningToo] at stays
  exact Option.some_ne_none _ stays

theorem exists_readContent_of_announces {path body : Text} (announces : Announces inner path body)
    (free : terminator ∉ inner) : ∃ captures, readContent inner = some captures := by
  have isPath := announces.isPath free
  obtain ⟨blank, opening, rfl, isBlank, -, -, isOpening⟩ := announces
  obtain ⟨captures, read⟩ := exists_readContent isBlank isPath isOpening body
  exact ⟨captures, by rw [← read]; simp⟩

theorem readContent_ne_none_iff (free : terminator ∉ inner) :
    readContent inner ≠ none ↔ ∃ path body, Announces inner path body := by
  rw [Option.ne_none_iff_exists']
  constructor
  · rintro ⟨captures, read⟩
    obtain ⟨path, body, announces, -⟩ := announces_of_readContent read free
    exact ⟨path, body, announces.1⟩
  · rintro ⟨path, body, announces⟩
    exact exists_readContent_of_announces announces free

theorem carriesBehind_iff_readsFirst (hasBody : form ∈ bodyForms) (free : terminator ∉ segment)
    (item : Text × Text) :
    CarriesBehind form.keyword segment item.1 item.2 ↔
      ∃ inner captures, form.ReadsFirst segment inner captures ∧
        captures.map (·.text.trim) = [item.1, item.2] := by
  have reads := read_of_mem_bodyForms hasBody
  have freeBehind {before inner : Text} (whole : segment = before ++ form.keyword ++ inner) :
      terminator ∉ inner := fun inside => free (by simp [whole, inside])
  have trimmed (captures : List Capture) :
      captures.map (·.text.trim) = (captures.map (·.text)).map Text.trim := by simp
  constructor
  · rintro ⟨before, inner, own, content, whole, announces, least, path, body⟩
    obtain ⟨captures, read⟩ := exists_readContent_of_announces announces.1 (freeBehind whole)
    obtain ⟨other, others, announcesToo, texts⟩ := announces_of_readContent read (freeBehind whole)
    obtain ⟨rfl, rfl⟩ := announces.unique announcesToo
    rw [← reads] at read
    refine ⟨inner, captures, ⟨read, before, whole, fun earlier other split readsOther => ?_⟩, ?_⟩
    · rw [reads] at readsOther
      exact least earlier other split ((readContent_ne_none_iff (freeBehind split)).mp readsOther)
    · rw [trimmed, texts, path, body]
      rfl
  · rintro ⟨inner, captures, ⟨read, before, whole, least⟩, same⟩
    rw [reads] at read
    obtain ⟨own, content, announces, texts⟩ := announces_of_readContent read (freeBehind whole)
    rw [trimmed, texts] at same
    obtain ⟨path, body⟩ : own.trim = item.1 ∧ content.trim = item.2 := by simpa using same
    refine ⟨before, inner, own, content, whole, announces, ?_, path.symm, body.symm⟩
    intro earlier other split announced
    have readsOther := (readContent_ne_none_iff (freeBehind split)).mpr announced
    exact least earlier other split (reads ▸ readsOther)

end Form

theorem carries_iff_readsFirst {kind : Kind} (carries : kind ∈ [Kind.write, Kind.append])
    {segment : Text} (free : terminator ∉ segment) (item : Text × Text) :
    Carries kind segment item.1 item.2 ↔
      ∃ inner captures, (Form.ofKind kind).ReadsFirst segment inner captures ∧
        captures.map (·.text.trim) = [item.1, item.2] := by
  rw [← Form.carriesBehind_iff_readsFirst (Kind.mem_bodyForms carries) free item]
  rcases List.mem_pair.mp carries with rfl | rfl <;> rfl

theorem decidedBy_carries {kind : Kind} (carries : kind ∈ [Kind.write, Kind.append]) :
    (Form.ofKind kind).DecidedBy (fun item : Text × Text => [item.1, item.2])
      fun segment item => Carries kind segment item.1 item.2 where
  anchored := Form.anchored_ofKind kind
  injective _ _ same := by simpa [Prod.ext_iff] using same
  exists_item found := by
    obtain ⟨before, inner, captures, -, read, rfl⟩ := Form.found?_sound found
    rw [read_of_mem_bodyForms (Kind.mem_bodyForms carries)] at read
    obtain ⟨_, path, _, body, -, -, -, -, rfl⟩ := Form.readContent_sound read
    exact ⟨(path.trim, body.trim), rfl⟩
  found_iff free item := by
    rw [(Form.anchored_ofKind kind).found_iff_readsFirst, carries_iff_readsFirst carries free]

namespace Pattern

/-- A terminator ends a statement with a body exactly when its segment carries one, and each kind
is extracted in the order of its terminators. -/
theorem extract_carriers (text : Text) :
    (∀ kind ∈ [Kind.write, Kind.append],
      (∀ position path body,
        (∃ occurrence ∈ kind.occurrences text,
          (Form.ofKind kind).EndsAt text occurrence position ∧ occurrence.row = [path, body]) ↔
        text[position]? = some terminator ∧
          Carries kind (segmentBefore text position) path body) ∧
      ∃ found : List (Nat × Text × Text), found.Pairwise (·.1 < ·.1) ∧
        (∀ position path body, (position, path, body) ∈ found ↔
          text[position]? = some terminator ∧
            Carries kind (segmentBefore text position) path body) ∧
        (ofKind kind).extract text = .ok (found.map fun item => [item.2.1, item.2.2])) ∧
    ∀ keyword segment, (∃ path body, CarriesBehind keyword segment path body) ↔
      ∃ before inner path body, segment = before ++ keyword ++ inner ∧
        Announces inner path body := by
  refine ⟨fun kind carries => ?_, exists_carriesBehind_iff⟩
  have seen : (ofKind kind).visibleText text = text := Kind.visibleText_of_body carries text
  have ends (position : Nat) (item : Text × Text) :=
    Kind.endsAt_iff (decidedBy_carries carries) text position item
  obtain ⟨found, ordered, places, extracted⟩ := Kind.exists_extract (decidedBy_carries carries) text
  simp only [seen] at ends places
  exact ⟨fun position path body => ends position (path, body), found, ordered,
    fun position path body => places position (path, body), extracted⟩

example :
    (ofKind .write).extract
        (Text.ofString "WRITE TO WRITE TO a THIS CONTENT: THIS CONTENT:\n\"b\" \";") =
      .ok [[Text.ofString "WRITE TO a THIS CONTENT:", Text.ofString "b\""]] := by decide

end Pattern

end CommandFile
