import CommandFile.Proofs.Frames

/-!
# Round trip

A plain line is read back as the statement that was written in it, and no kind but its own
finds anything there.  So a document gives back, kind by kind, the statements that were
written into it.
-/

namespace CommandFile

theorem Statement.Plain.path {statement : Statement} (plain : statement.Plain) {path : Text}
    (first : statement.args.head? = some path) : PlainPath path := by
  refine plain.paths path ?_
  cases statement <;> simp_all [Statement.args, Statement.paths]

theorem PlainPath.isPath {path : Text} (plain : PlainPath path) : Form.IsPath path := by
  refine ⟨plain.present, fun character inside => ?_⟩
  have sameLine : character ≠ '\n' := fun line => plain.oneLine (line ▸ inside)
  have unended : character ≠ terminator := fun ends => plain.unended (ends ▸ inside)
  simp [Form.isPathChar, sameLine, unended]

theorem Kind.rowOf?_of_forced {kind : Kind} {segment : Text}
    (deletes : kind = .deleteFile ∨ kind = .deleteFolder)
    (forced : Form.forceWord <:+ kind.visible segment) : kind.rowOf? segment = none := by
  have reads : (Form.ofKind kind).read = Form.readPlainPath (Form.ofKind kind).keyword := by
    rcases deletes with rfl | rfl <;> rfl
  have short : Form.forceWord.length ≤ (Form.ofKind kind).keyword.length := by
    rcases deletes with rfl | rfl <;> decide
  rw [Option.eq_none_iff_forall_ne_some]
  intro row found
  obtain ⟨inner, captures, ending, read, -⟩ := kind.exists_read_of_rowOf? found
  rw [reads] at read
  obtain ⟨unforced, -, -⟩ := Form.readPlainPath_eq_some_iff.mp read
  refine unforced (List.suffix_of_suffix_length_le forced ending ?_)
  rw [List.length_append]
  omega

namespace Line

variable {line : Line}

theorem not_infix_telling {kind : Kind} (differs : kind ≠ line.statement.kind)
    (unforced : line.statement.kind = .deleteForce → kind ≠ .deleteFile ∧ kind ≠ .deleteFolder)
    (paths : ∀ path ∈ line.statement.paths, PlainPath path)
    (bodies : ∀ body ∈ line.statement.body?,
      ¬ (kind.telling line.statement.kind).text <:+: body) :
    ¬ (kind.telling line.statement.kind).text <:+: line.segment := by
  intro inside
  have marker := Pattern.isMarker_markers kind _ (kind.telling_mem_markers line.statement.kind)
  obtain ⟨word, reserved, within⟩ := kind.exists_reserved_of_telling line.statement.kind
  rcases infix_of_segment marker.1 (kind.telling_solid _) inside with spaced | ⟨body, here, inBody⟩
  · refine Phrase.not_infix_spaced (kind.telling_proper _)
      (kind.telling_misses differs unforced _) (fun path among inPath => ?_) spaced
    exact (paths path among).unreserved word reserved (within.trans inPath)
  · exact bodies body here inBody

/-! ## The statement of a line -/

def captures (line : Line) : List Capture :=
  let content := fun path body =>
    [⟨.path, 1, path⟩,
      ⟨.body, 1 + path.length + (Form.contentWord.length + line.gap + 2), body⟩]
  match line.statement with
  | .createFolder path => [⟨.path, 0, path⟩]
  | .createFile path => [⟨.path, 0, path⟩]
  | .write path body => content path body
  | .append path body => content path body
  | .rename path newPath =>
      [⟨.path, 0, path⟩, ⟨.newPath, path.length + Form.toWord.length, newPath⟩]
  | .deleteFile path => [⟨.path, 0, path⟩]
  | .deleteFolder path => [⟨.path, 0, path⟩]
  | .deleteForce path => [⟨.path, line.naming.word.length, path⟩]

theorem readContent_content {path body : Text} (plain : PlainPath path) :
    Form.readContent (' ' :: (path ++ ' ' :: line.content body)) =
      some [⟨.path, 1, path⟩,
        ⟨.body, 1 + path.length + (Form.contentWord.length + line.gap + 2), body⟩] := by
  let opening : Text := ' ' :: (Form.contentWord ++ List.replicate line.gap ' ' ++ ['"'])
  have isOpening : Form.IsOpening opening := by
    refine ⟨' ', List.replicate line.gap ' ', by decide, ?_, ?_, rfl⟩
    · intro character inside
      rw [(List.mem_replicate.mp inside).2]
      decide
    · rw [List.length_replicate]
      have := line.gap.isLt
      omega
  have whole : ' ' :: line.content body = opening ++ body ++ ['"'] := by
    simp [opening, content]
  rw [whole, Form.readContent_complete (by decide) plain.isPath isOpening]
  · simp [opening]
    omega
  · intro first second present presentToo split
    cases second with
    | nil => exact absurd rfl presentToo
    | cons blank second =>
        refine Form.announcedBody?_of_not_prefix fun start => ?_
        rw [← whole, Form.contentWord_eq] at start
        rcases Text.prefix_between (by decide) (by decide) start with within | ⟨-, behind⟩
        · refine plain.unreserved Form.contentWord (by decide) ?_
          rw [split]
          exact within.isInfix.trans ⟨first ++ [blank], [], by simp⟩
        · -- The content word does not begin with its own second word.
          have content : Form.contentWord <+: line.content body := by
            rw [Line.content, List.append_assoc]
            exact List.prefix_append _ _
          have inContent := List.prefix_of_prefix_length_le behind content (by decide)
          exact absurd inContent (by decide)

theorem readTwoPaths_paths {path newPath : Text} (plain : PlainPath path)
    (plainToo : PlainPath newPath) (renamed : ¬ Text.ofString " TO" <:+: path) :
    Form.readTwoPaths (path ++ Form.toWord ++ newPath) =
      some [⟨.path, 0, path⟩, ⟨.newPath, path.length + Form.toWord.length, newPath⟩] := by
  refine Form.readTwoPaths_complete plain.isPath plainToo.isPath ?_
  intro first second present presentToo split start
  cases second with
  | nil => exact presentToo rfl
  | cons blank second =>
      have ending : Text.ofString " TO" = ' ' :: Text.ofString "TO" := rfl
      rw [Form.toWord_eq, List.append_assoc, List.cons_append, List.cons_append,
        List.cons_prefix_cons] at start
      obtain ⟨rfl, start⟩ := start
      rcases Text.prefix_between (by decide) (by decide) start with within | ⟨rfl, -⟩
      · obtain ⟨rest, rfl⟩ := within
        exact renamed ⟨first, ' ' :: rest, by simp [split, ending]⟩
      · exact renamed ⟨first, [], by simp [split, ending]⟩

theorem readForcedPath_named {path : Text} (plain : PlainPath path)
    (file : ¬ Text.ofString "FILE " <+: path) (folder : ¬ Text.ofString "FOLDER " <+: path)
    (naming : Naming) :
    Form.readForcedPath (naming.word ++ path ++ Form.forceWord) =
      some [⟨.path, naming.word.length, path⟩] := by
  have behind (word : Text) : Form.forcedBehind? word (word ++ path ++ Form.forceWord) =
      some [⟨.path, word.length, path⟩] :=
    Form.forcedBehind?_eq_some_iff.mpr ⟨path, rfl, plain.isPath, rfl⟩
  have unnamed {word text : Text} (other : ¬ word <+: text) :
      Form.forcedBehind? word (text ++ Form.forceWord) = none := by
    rw [Option.eq_none_iff_forall_ne_some]
    intro captures found
    obtain ⟨rest, whole, -, -⟩ := Form.forcedBehind?_eq_some_iff.mp found
    exact other ⟨rest, (List.append_cancel_right whole).symm⟩
  rw [Form.readForcedPath]
  cases naming with
  | unnamed =>
      have bare : Form.forcedPath? 0 (path ++ Form.forceWord) = some [⟨.path, 0, path⟩] :=
        Form.forcedPath?_eq_some_iff.mpr ⟨path, rfl, plain.isPath, rfl⟩
      rw [show Naming.unnamed.word = [] from rfl, List.nil_append, unnamed file, unnamed folder,
        bare, Option.none_or, Option.none_or, List.length_nil]
  | file =>
      rw [show Naming.file.word = Text.ofString "FILE " from rfl, behind, Option.some_or,
        Option.some_or]
  | folder =>
      have notFile : ¬ Text.ofString "FILE " <+: Text.ofString "FOLDER " ++ path := by
        intro start
        have inFolder := List.prefix_of_prefix_length_le start (List.prefix_append _ _) (by decide)
        exact absurd inFolder (by decide)
      rw [show Naming.folder.word = Text.ofString "FOLDER " from rfl, behind, unnamed notFile,
        Option.none_or, Option.some_or]

theorem not_forced (plain : line.statement.Plain) (other : line.statement.kind ≠ .deleteForce)
    (bodiless : line.statement.body? = none) : ¬ Form.forceWord <:+ line.segment := by
  rintro ⟨before, whole⟩
  have absent : ¬ (Kind.deleteForce.telling line.statement.kind).text <:+: line.segment :=
    not_infix_telling other.symm (fun same => absurd same other) plain.paths (by simp [bodiless])
  exact absent ⟨before ++ [' '], [], by rw [← whole, Form.forceWord_eq]; simp; rfl⟩

theorem read_inner (plain : line.statement.Plain) :
    (Form.ofKind line.statement.kind).read line.inner = some line.captures := by
  obtain ⟨statement, gap, naming⟩ := line
  have isPath {path : Text} (first : statement.args.head? = some path) : Form.IsPath path :=
    (plain.path first).isPath
  cases statement with
  | createFolder path => exact Form.readPath_eq_some_iff.mpr ⟨isPath rfl, rfl⟩
  | createFile path => exact Form.readPath_eq_some_iff.mpr ⟨isPath rfl, rfl⟩
  | write path body => exact readContent_content (plain.path rfl)
  | append path body => exact readContent_content (plain.path rfl)
  | rename path newPath =>
      have plainNewPath := plain.paths newPath (by simp [Statement.paths, Statement.args])
      exact readTwoPaths_paths (plain.path rfl) plainNewPath (plain.renamed path rfl)
  | deleteFile path =>
      have unforced := not_forced plain (by simp [Statement.kind]) rfl
      exact Form.readPlainPath_eq_some_iff.mpr ⟨unforced, isPath rfl, rfl⟩
  | deleteFolder path =>
      have unforced := not_forced plain (by simp [Statement.kind]) rfl
      exact Form.readPlainPath_eq_some_iff.mpr ⟨unforced, isPath rfl, rfl⟩
  | deleteForce path =>
      obtain ⟨file, folder⟩ := plain.forced path rfl
      exact readForcedPath_named (plain.path rfl) file folder naming

theorem found?_own (plain : line.statement.Plain) :
    (Form.ofKind line.statement.kind).found? line.segment =
      some ⟨0, (Form.ofKind line.statement.kind).behindKeyword line.captures⟩ :=
  (Form.anchored_ofKind _).found?_of_read (read_inner plain)

theorem not_infix_body {kind : Kind} (hasBody : (Pattern.ofKind kind).hasBody = true)
    (differs : kind ≠ line.statement.kind) (plain : line.statement.Plain) {body : Text}
    (here : body ∈ line.statement.body?) :
    ¬ (kind.telling line.statement.kind).text <:+: body := by
  have plainBody := plain.bodies body here
  obtain ⟨statement, gap, naming⟩ := line
  cases kind with
  | write =>
      cases statement with
      | write _ _ => exact absurd rfl differs
      | append _ _ =>
          have spelled : Form.write.keyword = (Kind.write.telling .append).text :=
            Form.keyword_eq .write
          have unwritten := plainBody.unwritten
          rwa [spelled] at unwritten
      | _ => nomatch here
  | append =>
      cases statement with
      | append _ _ => exact absurd rfl differs
      | write _ _ =>
          have spelled : Form.append.keyword = (Kind.append.telling .write).text :=
            Form.keyword_eq .append
          have unappended := plainBody.unappended
          rwa [spelled] at unappended
      | _ => nomatch here
  | _ => exact absurd hasBody (by decide)

theorem found?_other {kind : Kind} (hasBody : (Pattern.ofKind kind).hasBody = true)
    (differs : kind ≠ line.statement.kind) (plain : line.statement.Plain) :
    (Form.ofKind kind).found? line.segment = none := by
  have visible : kind.visible line.segment = line.segment := if_pos hasBody
  have unforced : kind ≠ .deleteFile ∧ kind ≠ .deleteFolder := by
    constructor <;> rintro rfl <;> exact absurd hasBody (by decide)
  have none : kind.rowOf? line.segment = none := by
    refine Kind.rowOf?_eq_none (kind.telling_mem_markers line.statement.kind) ?_
    rw [visible]
    exact not_infix_telling differs (fun _ => unforced) plain.paths
      fun _ here => not_infix_body hasBody differs plain here
  rw [Kind.rowOf?, visible] at none
  exact Option.map_eq_none_iff.mp none

/-! ## Masked lines -/

def masked (line : Line) : Line :=
  { line with
    statement :=
      match line.statement with
      | .write path body => .write path (body.map blanked)
      | .append path body => .append path (body.map blanked)
      | statement => statement }

@[simp] theorem kind_masked (line : Line) : line.masked.statement.kind = line.statement.kind := by
  obtain ⟨statement, gap, naming⟩ := line
  cases statement <;> rfl

@[simp] theorem paths_masked (line : Line) :
    line.masked.statement.paths = line.statement.paths := by
  obtain ⟨statement, gap, naming⟩ := line
  cases statement <;> rfl

theorem blank_of_mem_masked {body : Text} (here : body ∈ line.masked.statement.body?) :
    ∃ original : Text, body = original.map blanked := by
  obtain ⟨statement, gap, naming⟩ := line
  cases statement with
  | write _ original => exact ⟨original, (Option.some.inj here).symm⟩
  | append _ original => exact ⟨original, (Option.some.inj here).symm⟩
  | _ => nomatch here

theorem maskSegment_content {keyword path body : Text} {start : Nat}
    (begins : start =
      keyword.length + (1 + path.length + (Form.contentWord.length + line.gap + 2)))
    (spans : segmentSpans (keyword ++ ' ' :: (path ++ ' ' :: line.content body)) =
      [(start, start + body.length)]) :
    maskSegment (keyword ++ ' ' :: (path ++ ' ' :: line.content body)) =
      keyword ++ ' ' :: (path ++ ' ' :: line.content (body.map blanked)) := by
  let before : Text :=
    keyword ++ ' ' :: (path ++ ' ' :: (Form.contentWord ++ List.replicate line.gap ' '))
  have whole (body : Text) : keyword ++ ' ' :: (path ++ ' ' :: line.content body) =
      before ++ '"' :: (body ++ ['"']) := by
    simp [before, content]
  have behindQuote : start = before.length + 1 := by
    simp only [begins, before, List.length_append, List.length_cons, List.length_replicate]
    omega
  rw [maskSegment, spans, behindQuote, whole, whole, blankWhere_quoted]

theorem segmentSpans_segment (plain : line.statement.Plain) :
    segmentSpans line.segment =
      (Occurrence.mk 0 ((Form.ofKind line.statement.kind).behindKeyword
        line.captures)).bodySpan?.toList := by
  have spans : segmentSpans line.segment =
      (((Form.ofKind .write).found? line.segment).bind Occurrence.bodySpan?).toList ++
        (((Form.ofKind .append).found? line.segment).bind Occurrence.bodySpan?).toList := by
    change [Form.ofKind .write, Form.ofKind .append].filterMap _ = _
    simp only [List.filterMap_cons, List.filterMap_nil]
    split <;> split <;> simp_all
  have own := found?_own plain
  have bodied : line.statement.kind = .write ∨ line.statement.kind = .append ∨
      (line.statement.kind ≠ .write ∧ line.statement.kind ≠ .append ∧
        (Occurrence.mk 0 ((Form.ofKind line.statement.kind).behindKeyword
          line.captures)).bodySpan? = none) := by
    obtain ⟨statement, gap, naming⟩ := line
    cases statement with
    | write _ _ => exact .inl rfl
    | append _ _ => exact .inr (.inl rfl)
    | _ => exact .inr (.inr ⟨nofun, nofun, rfl⟩)
  rcases bodied with isWrite | isAppend | ⟨notWrite, notAppend, none⟩
  · have other : (Form.ofKind .append).found? line.segment = none :=
      found?_other rfl (by simp [isWrite]) plain
    rw [spans, other, ← isWrite, own]
    simp
  · have other : (Form.ofKind .write).found? line.segment = none :=
      found?_other rfl (by simp [isAppend]) plain
    rw [spans, other, ← isAppend, own]
    simp
  · have unwritten : (Form.ofKind .write).found? line.segment = .none :=
      found?_other rfl notWrite.symm plain
    have unappended : (Form.ofKind .append).found? line.segment = .none :=
      found?_other rfl notAppend.symm plain
    rw [spans, unwritten, unappended, none]
    rfl

theorem maskSegment_segment (plain : line.statement.Plain) :
    maskSegment line.segment = line.masked.segment := by
  have spans := segmentSpans_segment plain
  obtain ⟨statement, gap, naming⟩ := line
  cases statement with
  | write path body => exact maskSegment_content (Nat.zero_add _) spans
  | append path body => exact maskSegment_content (Nat.zero_add _) spans
  | _ => exact blankWhere_of_visible fun _ _ => by rw [spans]; rfl

/-! ## Rows of a line -/

theorem row_captures (plain : line.statement.Plain) :
    line.captures.map (fun capture => capture.text.trim) = line.statement.args := by
  obtain ⟨statement, gap, naming⟩ := line
  have trimmed {path : Text} (here : path ∈ statement.paths) : path.trim = path :=
    (plain.paths path here).trimmed
  have trimmedBody {body : Text} (here : body ∈ statement.body?) : body.trim = body :=
    (plain.bodies body here).trimmed
  cases statement with
  | write path body =>
      have first : path.trim = path := trimmed (List.mem_singleton_self path)
      simp [captures, Statement.args, first, trimmedBody rfl]
  | append path body =>
      have first : path.trim = path := trimmed (List.mem_singleton_self path)
      simp [captures, Statement.args, first, trimmedBody rfl]
  | rename path newPath =>
      have first : path.trim = path := trimmed List.mem_cons_self
      have second : newPath.trim = newPath :=
        trimmed (List.mem_cons_of_mem _ (List.mem_singleton_self newPath))
      simp [captures, Statement.args, first, second]
  | _ path =>
      have first : path.trim = path := trimmed (List.mem_singleton_self path)
      simp [captures, Statement.args, first]

theorem rowOf?_own (plain : line.statement.Plain) :
    line.statement.kind.rowOf? line.segment = some line.statement.args := by
  have visible : line.statement.kind.visible line.segment = line.segment := by
    have masked := maskSegment_segment plain
    unfold Kind.visible
    split
    · rfl
    · next bodiless =>
        rw [masked]
        obtain ⟨statement, gap, naming⟩ := line
        cases statement with
        | write _ _ => exact absurd rfl bodiless
        | append _ _ => exact absurd rfl bodiless
        | _ => rfl
  rw [Kind.rowOf?, visible, found?_own plain, Option.map_some, ← row_captures plain]
  simp [Occurrence.row, Form.behindKeyword, Function.comp_def]

theorem rowOf?_other {kind : Kind} (differs : kind ≠ line.statement.kind)
    (plain : line.statement.Plain) : kind.rowOf? line.segment = none := by
  by_cases hasBody : (Pattern.ofKind kind).hasBody = true
  · have visible : kind.visible line.segment = line.segment := if_pos hasBody
    rw [Kind.rowOf?, visible, found?_other hasBody differs plain, Option.map_none]
  have visible : kind.visible line.segment = line.masked.segment :=
    (if_neg hasBody).trans (maskSegment_segment plain)
  by_cases forced : line.statement.kind = .deleteForce ∧ (kind = .deleteFile ∨ kind = .deleteFolder)
  · -- A forced deletion may hold all markers of a plain one, which refuses it by its end.
    refine Kind.rowOf?_of_forced forced.2 ?_
    rw [visible]
    obtain ⟨statement, gap, naming⟩ := line
    cases statement with
    | deleteForce path => exact ⟨_, List.append_assoc _ _ _⟩
    | _ => exact absurd forced.1 (by simp [Statement.kind])
  · refine Kind.rowOf?_eq_none (kind.telling_mem_markers line.masked.statement.kind) ?_
    rw [visible]
    have unforced : line.masked.statement.kind = .deleteForce →
        kind ≠ .deleteFile ∧ kind ≠ .deleteFolder := by
      rw [kind_masked]
      tauto
    have paths : ∀ path ∈ line.masked.statement.paths, PlainPath path := by
      rw [paths_masked]
      exact plain.paths
    refine not_infix_telling (by rwa [kind_masked]) unforced paths fun body here => ?_
    obtain ⟨original, rfl⟩ := blank_of_mem_masked here
    exact (Pattern.isMarker_markers kind _ (kind.telling_mem_markers _)).not_infix_blanked original

end Line

/-! ## Documents -/

namespace Line

theorem free_segment {line : Line} (plain : line.statement.Plain) :
    terminator ∉ line.segment := by
  intro inside
  have inInner : terminator ∈ line.inner :=
    (List.mem_append.mp inside).resolve_left (Form.anchored_ofKind _).unmarked
  have path {path : Text} (here : path ∈ line.statement.paths) : terminator ∉ path :=
    (plain.paths path here).unended
  have body {body : Text} (here : body ∈ line.statement.body?) : terminator ∉ body :=
    (plain.bodies body here).unended
  have blank : terminator ≠ ' ' := by decide
  have quote : terminator ≠ '"' := by decide
  have content {path body : Text} (freePath : terminator ∉ path) (freeBody : terminator ∉ body) :
      terminator ∉ ' ' :: (path ++ ' ' :: line.content body) := by
    have word : terminator ∉ Form.contentWord := by decide
    simp [Line.content, word, freePath, freeBody, blank, quote]
  obtain ⟨statement, gap, naming⟩ := line
  cases statement with
  | write _ _ => exact content (path (List.mem_singleton_self _)) (body rfl) inInner
  | append _ _ => exact content (path (List.mem_singleton_self _)) (body rfl) inInner
  | rename _ _ =>
      have between : terminator ∉ Form.toWord := by decide
      have first := path List.mem_cons_self
      have second := path (List.mem_cons_of_mem _ (List.mem_singleton_self _))
      simp [inner, between, first, second] at inInner
  | deleteForce _ =>
      have named : terminator ∉ naming.word := by cases naming <;> decide
      have force : terminator ∉ Form.forceWord := by decide
      simp [inner, named, force, path (List.mem_singleton_self _)] at inInner
  | _ => exact path (List.mem_singleton_self _) inInner

theorem commands_document_cons (kind : Kind) {line : Line} (free : terminator ∉ line.segment)
    (lines : List Line) :
    kind.commands (document (line :: lines)) =
      (kind.rowOf? line.segment).toList.map (Command.mk kind) ++
        kind.commands (document lines) := by
  rw [Kind.commands, document_cons, kind.rows_segment free, kind.rows_newline, List.map_append,
    Kind.commands]

end Line

namespace Statement

/-- Statements that were written line by line are read back, every kind its own ones in
their order. -/
theorem commands_document (kind : Kind) (lines : List Line)
    (plain : ∀ line ∈ lines, line.statement.Plain) :
    (Pattern.ofKind kind).commands (Line.document lines) =
      .ok (commandsOf kind (lines.map Line.statement)) := by
  rw [Pattern.commands_ofKind]
  congr 1
  induction lines with
  | nil =>
      rw [Line.document_nil, Kind.commands, kind.rows_of_unfinished List.not_mem_nil]
      rfl
  | cons line lines ih =>
      have here := plain line List.mem_cons_self
      have later := ih fun other inside => plain other (List.mem_cons_of_mem _ inside)
      rw [Line.commands_document_cons kind (Line.free_segment here), later, List.map_cons,
        commandsOf, commandsOf, List.map_cons]
      by_cases own : line.statement.kind = kind
      · subst own
        rw [Line.rowOf?_own here, List.filter_cons_of_pos (by simp [command])]
        rfl
      · rw [Line.rowOf?_other (Ne.symm own) here,
          List.filter_cons_of_neg (by simp [command, own])]
        rfl

/-- A deletion that is quoted in a body is not read as one. -/
theorem commands_document_quoted :
    let path := Text.ofString "notes.md"
    let body := Text.ofString "say \"hi\"\nDELETE FILE notes.md"
    let lines : List Line :=
      [⟨.createFile path, 0, .unnamed⟩, ⟨.write path body, 3, .unnamed⟩,
        ⟨.rename path (Text.ofString "b TO c"), 0, .unnamed⟩, ⟨.append path [], 0, .unnamed⟩,
        ⟨.deleteForce path, 0, .folder⟩, ⟨.deleteFile (Text.ofString "b"), 0, .unnamed⟩]
    (∀ line ∈ lines, line.statement.Plain) ∧
    (Pattern.ofKind .write).commands (Line.document lines) = .ok [⟨.write, [path, body]⟩] ∧
    (Pattern.ofKind .deleteFile).commands (Line.document lines) =
      .ok [⟨.deleteFile, [Text.ofString "b"]⟩] := by
  intro path body lines
  have plain : ∀ line ∈ lines, line.statement.Plain := by decide +kernel
  exact ⟨plain, commands_document .write lines plain, commands_document .deleteFile lines plain⟩

end Statement

end CommandFile
