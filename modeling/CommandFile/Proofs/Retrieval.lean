import CommandFile.Proofs.Attempts
import CommandFile.Proofs.Encodings

/-!
# Retrieval

What is written to a path is read there again, although a write takes the path as it stands and a
reading takes its normal form.  A reading turns every line break into a line feed, and it looks
for line breaks in all that the file holds: a carriage return at the end of what was written
belongs to a line feed that was appended to it.
-/

namespace CommandFile

namespace Text

/-- Leaves out each carriage return that a line feed follows. -/
def dropPaired : Text → Text
  | [] => []
  | character :: rest =>
      if character = '\r' ∧ rest.head? = some '\n' then dropPaired rest
      else character :: dropPaired rest

/-- Each carriage return becomes a line feed, together with the line feed that follows it if
there is one. -/
def lineFed (text : Text) : Text :=
  text.dropPaired.map fun character => if character = '\r' then '\n' else character

theorem unifyLineBreaks_eq_lineFed (text : Text) : text.unifyLineBreaks = text.lineFed := by
  fun_induction unifyLineBreaks text with
  | case1 => rfl
  | case2 rest ih => simpa [lineFed, dropPaired] using ih
  | case3 rest alone ih =>
      have single : rest.head? ≠ some '\n' := by
        cases rest with
        | nil => simp
        | cons next rest => simpa using fun same => alone rest (by rw [same])
      simpa [lineFed, dropPaired, single] using ih
  | case4 character rest _ other ih =>
      have plain : character ≠ '\r' := other
      simpa [lineFed, dropPaired, plain] using ih

theorem lineFed_of_free {text : Text} (free : '\r' ∉ text) : text.lineFed = text := by
  induction text with
  | nil => rfl
  | cons character text ih =>
      rw [List.mem_cons, not_or] at free
      have same := ih free.2
      have plain : character ≠ '\r' := Ne.symm free.1
      rw [lineFed] at same ⊢
      rw [dropPaired, if_neg (fun paired => plain paired.1), List.map_cons, if_neg plain, same]

end Text

theorem Utf8.decodeReplacing_encode (text : Text) : decodeReplacing (encode text) = text :=
  ((decode_eq_ok_iff _ _).mp (decode_encode text)).2

namespace Operation

variable {path content text : Text} {append : Bool} {tree : Tree}

def writtenCharset : Text := Text.ofString "utf-8"

theorem readText_of_encoded (named : '\x00' ∉ path)
    (found : tree.status path = .ok (.file (Utf8.encode text))) :
    readText path writtenCharset tree = .ok text.lineFed := by
  have spelled : '\x00' ∉ writtenCharset := by decide
  have charset : Charset.ofName? writtenCharset = some .utf8 := by decide
  have read : Charset.read writtenCharset (Utf8.encode text) = .ok (.plain text) := by
    rw [Charset.read, charset]
    exact congrArg (fun text => Except.ok (Document.plain text)) (Utf8.decodeReplacing_encode text)
  rw [readText, readDocument, documentAt_of_file named spelled found read,
    Document.unifyLineBreaks, Document.plain, Text.unifyLineBreaks_eq_lineFed]
  rfl

theorem status_writeFile (done : (writeFile .none path content append tree).answer = .ok ()) :
    '\x00' ∉ path ∧ ∃ old,
      (tree.status path = .error .noEntry ∧ old = [] ∨ tree.status path = .ok (.file old)) ∧
      (writeFile .none path content append tree).tree.status path =
        .ok (.file (written append old (Utf8.encode content))) := by
  rcases isAttempt_writeFile path content append tree with
    ⟨callable, changes, -⟩ | ⟨-, -, failure, fails⟩
  · exact ⟨callable.2, Tree.status_changeFile changes⟩
  · nomatch fails.symm.trans done

theorem readText_of_write (done : (writeFile .none path content false tree).answer = .ok ()) :
    readText path writtenCharset (writeFile .none path content false tree).tree =
      .ok content.lineFed := by
  obtain ⟨named, old, -, found⟩ := status_writeFile done
  exact readText_of_encoded named found

theorem readText_of_append {old : Text}
    (before : tree.status path = .error .noEntry ∧ old = [] ∨
      tree.status path = .ok (.file (Utf8.encode old)))
    (done : (writeFile .none path content true tree).answer = .ok ()) :
    readText path writtenCharset (writeFile .none path content true tree).tree =
      .ok (old ++ content).lineFed := by
  obtain ⟨named, bytes, held, found⟩ := status_writeFile done
  have same : bytes = Utf8.encode old := by
    rcases before with ⟨missing, rfl⟩ | there <;> rcases held with ⟨missing', rfl⟩ | there'
    · rfl
    · nomatch missing.symm.trans there'
    · nomatch missing'.symm.trans there
    · exact Entry.file.inj (Except.ok.inj (there'.symm.trans there))
  have joined : written true bytes (Utf8.encode content) = Utf8.encode (old ++ content) := by
    rw [same, written, if_pos rfl, Utf8.encode, Utf8.encode, Utf8.encode, List.flatMap_append]
  rw [joined] at found
  exact readText_of_encoded named found

/-- What is written is what is read, up to line breaks, and so is what is appended to it or to
any file that holds a text.  Without carriage returns it is read as it was written. -/
theorem readText_of_written (path : Text) (tree : Tree) :
    (∀ content : Text, (writeFile .none path content false tree).answer = .ok () →
      readText path writtenCharset (writeFile .none path content false tree).tree =
        .ok content.lineFed) ∧
    (∀ first second : Text,
      let once := writeFile .none path first false tree
      let twice := writeFile .none path second true once.tree
      once.answer = .ok () → twice.answer = .ok () →
        readText path writtenCharset twice.tree = .ok (first ++ second).lineFed) ∧
    (∀ old content : Text,
      (tree.status path = .error .noEntry ∧ old = [] ∨
        tree.status path = .ok (.file (Utf8.encode old))) →
      (writeFile .none path content true tree).answer = .ok () →
        readText path writtenCharset (writeFile .none path content true tree).tree =
          .ok (old ++ content).lineFed) ∧
    ∀ content : Text, '\r' ∉ content → content.lineFed = content := by
  refine ⟨fun content => readText_of_write, fun first second done doneToo => ?_,
    fun old content => readText_of_append, fun content => Text.lineFed_of_free⟩
  obtain ⟨-, old, -, found⟩ := status_writeFile done
  exact readText_of_append (.inr found) doneToo

/-- A line break that is written in two parts, through a link and over bytes that are no text. -/
theorem readText_of_written_linked :
    let path := Text.ofString "./l"
    let tree : Tree := ⟨[([Text.ofString "d"], .folder),
      ([Text.ofString "f", Text.ofString "d"], .file [0xFF]),
      ([Text.ofString "l"], .link (Text.ofString "d//f"))]⟩
    let first := Text.ofString "a\r\nb\r"
    let second := Text.ofString "\nc\rd"
    let once := writeFile .none path first false tree
    let twice := writeFile .none path second true once.tree
    once.answer = .ok () ∧ twice.answer = .ok () ∧
    readText path writtenCharset once.tree = .ok (Text.ofString "a\nb\n") ∧
    readText path writtenCharset twice.tree = .ok (Text.ofString "a\nb\nc\nd") := by
  intro path tree first second once twice
  obtain ⟨writes, appends, -, -⟩ := readText_of_written path tree
  have done : once.answer = .ok () := by decide +kernel
  have doneToo : twice.answer = .ok () := by decide +kernel
  exact ⟨done, doneToo, writes first done, appends first second done doneToo⟩

end Operation

end CommandFile
