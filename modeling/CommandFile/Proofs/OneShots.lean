import CommandFile.CommandLine.Call
import CommandFile.Proofs.Attempts
import CommandFile.Proofs.Markers

/-!
# One-shot runs

A run of a file that can be read is a settled pass: what it prints are the lines of the pass,
one for every outcome, and its status tells whether one of them is a failure.  Where the document
has no markers the run says that nothing was found, and where it has markers but no statements it
says nothing at all.
-/

namespace CommandFile

namespace Pass

/-- Batches that account for all statements of the kinds that a document has markers of. -/
structure Accounted (document : Text) (batches : List (Kind × Batch)) : Prop where
  kinds : batches.map Prod.fst = detectKinds document
  answers : ∀ item ∈ batches,
    List.Forall₂ (Batch.Answers item.1) (item.1.commands document) item.2.outcomes
  tells : ∀ item ∈ batches, List.Forall₂ Batch.Tells item.2.outcomes item.2.messages

theorem answers_of_batches {faults : Faults} (calm : faults.Calm) {document : Text}
    {turns : Kind → List Nat} {tree last : Tree} {batches : List (Kind × Batch)}
    (chain : Batches faults document turns tree batches last) :
    ∀ item ∈ batches,
      List.Forall₂ (Batch.Answers item.1) (item.1.commands document) item.2.outcomes ∧
        List.Forall₂ Batch.Tells item.2.outcomes item.2.messages := by
  induction chain with
  | done tree => exact List.forall_mem_nil _
  | @next kind tree last batch others here later ih =>
      refine List.forall_mem_cons.mpr ⟨?_, ih⟩
      obtain ⟨settled, answer, answers, tells⟩ := Batch.handle_ok calm kind document tree _
      obtain rfl := Except.ok.inj (answer.symm.trans here)
      exact ⟨answers, tells⟩

theorem run_accounted {faults : Faults} (calm : faults.Calm) (document : Text) (tree : Tree)
    (turns : Kind → List Nat) :
    ∃ batches,
      Batches faults document turns tree batches (run faults document tree turns).tree ∧
      Accounted document batches ∧
      (run faults document tree turns).answer = .ok (ofBatches batches) := by
  obtain ⟨answer, last⟩ := run_eq_ofKinds faults document tree turns
  obtain ⟨batches, chain, kinds, settled⟩ :=
    ofKinds_ok calm document (detectKinds document) tree turns
  have each := answers_of_batches calm chain
  rw [answer, last]
  exact ⟨batches, chain,
    ⟨kinds, fun item inside => (each item inside).1, fun item inside => (each item inside).2⟩,
    settled⟩

section Accounted

variable {document : Text} {batches : List (Kind × Batch)}

def outcomesIn (batches : List (Kind × Batch)) : List Outcome :=
  batches.flatMap fun item => item.2.outcomes

theorem failures_ofBatches (batches : List (Kind × Batch)) :
    (ofBatches batches).failures = 0 ↔
      ∀ outcome ∈ outcomesIn batches, outcome.status ≠ .failed := by
  have same : (ofBatches batches).outcomes = outcomesIn batches := by
    simp [outcomes, ofBatches, outcomesIn, List.flatMap_map]
  rw [failures, Outcome.failures, same, List.countP_eq_zero]
  simp [Outcome.isFailed]

theorem Accounted.results_eq_nil (accounted : Accounted document batches) :
    (ofBatches batches).results = [] ↔ detectKinds document = [] := by
  rw [← accounted.kinds, List.map_eq_nil_iff]
  exact List.map_eq_nil_iff

theorem Accounted.forall₂_tells (accounted : Accounted document batches) :
    List.Forall₂ Batch.Tells (outcomesIn batches) (ofBatches batches).messages := by
  have each := accounted.tells
  clear accounted
  induction batches with
  | nil => exact .nil
  | cons item batches ih =>
      obtain ⟨here, later⟩ := List.forall_mem_cons.mp each
      exact List.rel_append here (ih later)

theorem Accounted.outcomes_eq_nil (accounted : Accounted document batches) :
    outcomesIn batches = [] ↔
      ∀ kind ∈ detectKinds document, (Pattern.ofKind kind).extract document = .ok [] := by
  rw [outcomesIn, List.flatMap_eq_nil_iff, ← accounted.kinds, List.forall_mem_map]
  refine forall₂_congr fun item inside => ?_
  have count := (accounted.answers item inside).length_eq
  rw [Kind.commands, List.length_map] at count
  rw [Pattern.extract_ofKind, Except.ok.injEq, ← List.length_eq_zero_iff, ← count,
    List.length_eq_zero_iff]

end Accounted

end Pass

/-- Where no kind is detected nothing can be extracted.  The word that hides the deletion of a
folder is itself a marker, so another kind is detected in its place. -/
theorem extract_of_undetected {document : Text} (undetected : detectKinds document = [])
    (kind : Kind) : (Pattern.ofKind kind).extract document = .ok [] := by
  have absent (other : Kind) : (Pattern.ofKind other).isPresent document ≠ true := by
    rw [ne_eq, ← Pass.mem_detectKinds, undetected]
    exact List.not_mem_nil
  rw [Pattern.extract_ofKind, Except.ok.injEq, List.eq_nil_iff_forall_not_mem]
  intro row member
  refine absent kind (Pattern.isPresent_of_mem_rows member fun word excluded inside => ?_)
  cases kind with
  | deleteFolder =>
      obtain rfl := List.mem_singleton.mp excluded
      obtain ⟨inner, captures, written, -, -⟩ := Kind.exists_read_of_mem_rows _ member
      have shown :
          Text.ofString "DELETE" <:+: (Pattern.ofKind .deleteFolder).visibleText document :=
        List.IsInfix.trans ⟨[], Text.ofString " FOLDER " ++ inner, rfl⟩ written
      have deletes : Text.ofString "DELETE" <:+: document :=
        Pattern.infix_of_visibleText (by decide) shown
      refine absent .deleteForce ((Pattern.isPresent_iff _ _).mpr ⟨?_, List.forall_mem_nil _⟩)
      exact List.forall_mem_cons.mpr ⟨deletes, List.forall_mem_singleton.mpr inside⟩
  | _ => exact absurd excluded List.not_mem_nil

namespace CommandLine

structure Readable (tree : Tree) (file charset : Text) (document : Document) : Prop where
  named : '\x00' ∉ file
  spelled : '\x00' ∉ charset
  read : ∃ bytes written, tree.status file = .ok (.file bytes) ∧
    Charset.read charset bytes = .ok written ∧ written.unifyLineBreaks = document

def setUp (logging : Logging) (start : Store) (environment : Environment) (head : Head)
    (tree : Tree) : Effect Unit :=
  let change := openStore start head environment tree
  logging (withDebug change.store head.debug).settings.debug change.tree

/-- The words of a call ask for a run of a file, the settings are loaded and name a charset, and
logging is set up. -/
structure AsksToRun (logging : Logging) (start : Store) (environment : Environment)
    (words : List Text) (head : Head) (rest : List Text) (tree : Tree) (file charset : Text) :
    Prop where
  ordered : Request.read words = .ok (.order head .run rest)
  named : Order.read .run rest = .ok (.run file)
  loaded : (openStore start head environment tree).answer = .ok ()
  charset : (openStore start head environment tree).store.settings.watch.encoding = charset
  logged : (setUp logging start environment head tree).answer = .ok ()

variable {logging : Logging} {start : Store} {environment : Environment} {words rest : List Text}
  {head : Head} {tree : Tree} {file charset : Text} {document : Document}

theorem documentAt_of_readable (readable : Readable tree file charset document) :
    Operation.documentAt (Path.parse file).text charset tree = .ok document := by
  obtain ⟨named, spelled, bytes, written, found, read, rfl⟩ := readable
  exact Operation.documentAt_of_file named spelled found read

theorem runFile_of_readable (readable : Readable tree file charset document)
    (turns : Kind → List Nat) :
    runFile file charset tree turns = run (.parse file) charset tree turns := by
  obtain ⟨named, -, bytes, -, found, -⟩ := readable
  unfold runFile
  dsimp only
  rw [if_neg (by simpa using named), found]

theorem encoding_withDebug (store : Store) (debug : Bool) :
    (withDebug store debug).settings.watch.encoding = store.settings.watch.encoding := by
  cases debug <;> rfl

theorem call_of_asksToRun
    (asks : AsksToRun logging start environment words head rest tree file charset)
    (interrupted : Bool) (turns : Kind → List Nat) :
    let answer := call logging start environment interrupted words tree turns
    let result := runFile file charset (setUp logging start environment head tree).tree turns
    answer.ending = result.ending ∧ answer.output = result.output ∧ answer.tree = result.tree := by
  obtain ⟨ordered, named, loaded, rfl, logged⟩ := asks
  unfold setUp at logged ⊢
  simp only [call, ordered, loaded, logged, named, perform, encoding_withDebug, and_self]

theorem run_of_readable (readable : Readable tree file charset document)
    (turns : Kind → List Nat) :
    let result := run (.parse file) charset tree turns
    ∃ batches, Pass.Batches (.ofDocument document) document.text turns tree batches result.tree ∧
      Pass.Accounted document.text batches ∧
      result.output = (report (Pass.ofBatches batches)).messages.flatMap (·.printed false) ∧
      result.ending =
        if (Pass.ofBatches batches).failures = 0 then .done else .statementsFailed := by
  obtain ⟨batches, chain, accounted, answer⟩ :=
    Pass.run_accounted (Faults.calm_ofDocument document) document.text tree turns
  have passed : pass (.parse file) charset tree turns =
      Pass.run (.ofDocument document) document.text tree turns := by
    rw [pass, documentAt_of_readable readable]
  refine ⟨batches, ?_, accounted, ?_⟩
  · unfold run
    dsimp only
    rw [passed, answer]
    dsimp only
    split <;> exact chain
  · unfold run
    dsimp only
    rw [passed, answer]
    dsimp only
    split <;> exact ⟨rfl, rfl⟩

theorem call_of_readable
    (asks : AsksToRun logging start environment words head rest tree file charset)
    (readable :
      Readable (setUp logging start environment head tree).tree file charset document)
    (interrupted : Bool) (turns : Kind → List Nat) :
    let begun := (setUp logging start environment head tree).tree
    let answer := call logging start environment interrupted words tree turns
    ∃ batches, Pass.Batches (.ofDocument document) document.text turns begun batches answer.tree ∧
      Pass.Accounted document.text batches ∧
      answer.output = (report (Pass.ofBatches batches)).messages.flatMap (·.printed false) ∧
      answer.ending =
        if (Pass.ofBatches batches).failures = 0 then .done else .statementsFailed := by
  intro begun answer
  obtain ⟨ending, output, last⟩ := call_of_asksToRun asks interrupted turns
  rw [runFile_of_readable readable] at ending output last
  obtain ⟨batches, chain, accounted, printed, ended⟩ := run_of_readable readable turns
  exact ⟨batches, last ▸ chain, accounted, output.trans printed, ending.trans ended⟩

/-! ## Status and lines -/

section Report

variable {text : Text} {batches : List (Kind × Batch)}

theorem report_eq (accounted : Pass.Accounted text batches) :
    (report (Pass.ofBatches batches)).messages =
      if detectKinds text = [] then nothingFound.messages
      else (Pass.ofBatches batches).messages := by
  unfold report
  simp only [accounted.results_eq_nil]
  split <;> rfl

theorem exists_iff_of_forall₂ {α β : Type} {good : α → Prop} {goodToo : β → Prop} {items : List α}
    {others : List β}
    (same : List.Forall₂ (fun item other => goodToo other ↔ good item) items others) :
    (∃ other ∈ others, goodToo other) ↔ ∃ item ∈ items, good item := by
  induction same with
  | nil => simp
  | cons here _ ih => simp [here, ih]

theorem exists_error_iff (accounted : Pass.Accounted text batches) :
    (∃ line ∈ (report (Pass.ofBatches batches)).messages, line.category = .error) ↔
      ∃ outcome ∈ Pass.outcomesIn batches, outcome.status = .failed := by
  rw [report_eq accounted]
  split
  · next undetected =>
      have none : Pass.outcomesIn batches = [] := by
        rw [accounted.outcomes_eq_nil, undetected]
        exact List.forall_mem_nil _
      simp [none, nothingFound, Report.info]
  · exact exists_iff_of_forall₂ (accounted.forall₂_tells.imp fun _ _ tells => tells.2)

end Report

/-- The status of a one-shot run tells the truth, once the settings have been loaded and logging
has been set up: without either, the call ends with status one and runs nothing.  A run ends with
status one exactly when a statement has failed, which is when an error is printed, and with zero
otherwise, whatever the tree, the environment and the order of the calls are. -/
theorem status_of_run
    (asks : AsksToRun logging start environment words head rest tree file charset)
    (readable :
      Readable (setUp logging start environment head tree).tree file charset document)
    (interrupted : Bool) (turns : Kind → List Nat) :
    let begun := (setUp logging start environment head tree).tree
    let answer := call logging start environment interrupted words tree turns
    ∃ batches, Pass.Batches (.ofDocument document) document.text turns begun batches answer.tree ∧
      Pass.Accounted document.text batches ∧
      let outcomes := Pass.outcomesIn batches
      let lines := (report (Pass.ofBatches batches)).messages
      answer.output = lines.flatMap (·.printed false) ∧
      (answer.ending.status = 1 ↔ ∃ outcome ∈ outcomes, outcome.status = .failed) ∧
      (answer.ending.status = 1 ↔ ∃ line ∈ lines, line.category = .error) ∧
      (answer.ending.status = 0 ↔ ∀ outcome ∈ outcomes, outcome.status ≠ .failed) := by
  intro begun answer
  obtain ⟨batches, chain, accounted, printed, ending⟩ :=
    call_of_readable asks readable interrupted turns
  have zero := Pass.failures_ofBatches batches
  have status : answer.ending.status = if (Pass.ofBatches batches).failures = 0 then 0 else 1 := by
    rw [show answer.ending = _ from ending]
    split <;> rfl
  have one : answer.ending.status = 1 ↔
      ∃ outcome ∈ Pass.outcomesIn batches, outcome.status = .failed := by
    rw [status]
    split
    · next none => simpa using zero.mp none
    · next some => simpa using mt zero.mpr some
  refine ⟨batches, chain, accounted, printed, one, ?_, ?_⟩
  · rw [one, exists_error_iff accounted]
  · rw [status, ← zero]
    split
    · next none => exact iff_of_true rfl none
    · next some => exact iff_of_false Nat.one_ne_zero some

/-- A file with a failing statement among others, run with a delay in the environment. -/
theorem status_of_run_refused :
    let document := Text.ofString "DELETE FILE x;CREATE FILE y;CREATE FILE c;"
    let tree : Tree := ⟨[([Text.ofString "c"], .file (Utf8.encode document))]⟩
    let environment := { Environment.empty with delay := ['2'] }
    let words := [Text.ofString "run", Text.ofString "c"]
    let answer :=
      call .nowhere (.new (Path.parse (Text.ofString "d.toml"))) environment false words tree
    answer.ending.status = 1 ∧
      ∃ batches, Pass.Batches .none document (fun _ => []) tree batches answer.tree ∧
        batches.map Prod.fst = [.createFile, .deleteFile] ∧
        ∃ outcome ∈ Pass.outcomesIn batches, outcome.status = .failed := by
  intro document tree environment words answer
  have asks : AsksToRun .nowhere (.new (Path.parse (Text.ofString "d.toml"))) environment words
      ⟨false, none⟩ [['c']] tree ['c'] (Text.ofString "utf-8") :=
    ⟨by decide +kernel, by decide +kernel, by decide +kernel, by decide +kernel, rfl⟩
  have readable : Readable tree ['c'] (Text.ofString "utf-8") (.plain document) :=
    ⟨by decide, by decide, Utf8.encode document, .plain document, by decide +kernel,
      by decide +kernel, by decide +kernel⟩
  obtain ⟨batches, chain, accounted, -, one, -⟩ := status_of_run asks readable false fun _ => []
  rw [Faults.ofDocument_plain] at chain
  have status : answer.ending.status = 1 := by decide +kernel
  have detected : detectKinds document = [.createFile, .deleteFile] := by decide +kernel
  exact ⟨status, batches, chain, accounted.kinds.trans detected, one.mp status⟩

theorem category_ne_info {outcome : Outcome} {message : Message}
    (told : outcome.message = .ok message) : message.category ≠ .info := by
  unfold Outcome.message at told
  split at told
  · cases filled : Outcome.fill 0 outcome.kind.phrase outcome.targets with
    | error failure => simp [filled, Except.map] at told
    | ok text =>
        rw [filled] at told
        obtain rfl := Except.ok.inj told
        nofun
  · nomatch told
  · obtain rfl := Except.ok.inj told
    nofun
  · obtain rfl := Except.ok.inj told
    nofun

@[simp] theorem printed_ne_nil (message : Message) : message.printed false ≠ [] := by
  simp [Message.printed, Console.shown, Console.page]

/-- What a one-shot run prints.  It says that nothing was found exactly where no kind of statement
has its markers in the text, and then nothing can be extracted either.  Otherwise it prints one
line for every outcome, and that is nothing at all where the detected kinds have no statements. -/
theorem lines_of_run
    (asks : AsksToRun logging start environment words head rest tree file charset)
    (readable :
      Readable (setUp logging start environment head tree).tree file charset document)
    (interrupted : Bool) (turns : Kind → List Nat) :
    let text := document.text
    let begun := (setUp logging start environment head tree).tree
    let answer := call logging start environment interrupted words tree turns
    ∃ batches, Pass.Batches (.ofDocument document) text turns begun batches answer.tree ∧
      Pass.Accounted text batches ∧
      let outcomes := Pass.outcomesIn batches
      let lines := (report (Pass.ofBatches batches)).messages
      answer.output = lines.flatMap (·.printed false) ∧
      (detectKinds text = [] →
        lines = [⟨.info, "No statements found."⟩] ∧
          ∀ kind, (Pattern.ofKind kind).extract text = .ok []) ∧
      (detectKinds text ≠ [] → List.Forall₂ Batch.Tells outcomes lines) ∧
      (⟨.info, "No statements found."⟩ ∈ lines ↔ detectKinds text = []) ∧
      (answer.output = [] ↔
        detectKinds text ≠ [] ∧
          ∀ kind ∈ detectKinds text, (Pattern.ofKind kind).extract text = .ok []) := by
  intro text begun answer
  unfold text
  obtain ⟨batches, chain, accounted, printed, -⟩ :=
    call_of_readable asks readable interrupted turns
  have tells := accounted.forall₂_tells
  have written : answer.output = [] ↔ (report (Pass.ofBatches batches)).messages = [] := by
    rw [show answer.output = _ from printed, List.flatMap_eq_nil_iff,
      List.eq_nil_iff_forall_not_mem]
    exact forall₂_congr fun message _ => iff_of_false (printed_ne_nil message) id
  have lines := report_eq accounted
  refine ⟨batches, chain, accounted, printed, fun undetected => ?_, fun detected => ?_, ?_, ?_⟩
  · rw [lines, if_pos undetected]
    exact ⟨rfl, extract_of_undetected undetected⟩
  · rwa [lines, if_neg detected]
  · rw [lines]
    split
    · next undetected => simp [undetected, nothingFound, Report.info]
    · next detected =>
        have never : List.Forall₂ (fun _ line => line.category = .info ↔ False)
            (Pass.outcomesIn batches) (Pass.ofBatches batches).messages :=
          tells.imp fun _ _ told => iff_false_intro (category_ne_info told.1)
        refine iff_of_false (fun inside => ?_) detected
        obtain ⟨_, -, impossible⟩ := (exists_iff_of_forall₂ never).mp ⟨_, inside, rfl⟩
        exact impossible
  · rw [written, lines]
    split
    · next undetected => simp [undetected, nothingFound, Report.info]
    · next detected =>
        rw [and_iff_right detected, ← accounted.outcomes_eq_nil, ← List.length_eq_zero_iff,
          ← tells.length_eq, List.length_eq_zero_iff]

/-- A statement that was never finished has its marker, and the run passes over it in silence. -/
theorem lines_of_run_unfinished :
    let document := Text.ofString "CREATE FILE a"
    let tree : Tree := ⟨[([Text.ofString "c"], .file (Utf8.encode document))]⟩
    let words := [Text.ofString "run", Text.ofString "c"]
    let answer :=
      call .nowhere (.new (Path.parse (Text.ofString "d.toml"))) .empty false words tree
    detectKinds document = [.createFile] ∧
      (Pattern.ofKind .createFile).extract document = .ok [] ∧
      answer.output = [] ∧ answer.ending = .done := by
  intro document tree words answer
  have asks : AsksToRun .nowhere (.new (Path.parse (Text.ofString "d.toml"))) .empty words
      ⟨false, none⟩ [['c']] tree ['c'] (Text.ofString "utf-8") :=
    ⟨by decide +kernel, by decide +kernel, by decide +kernel, by decide +kernel, rfl⟩
  have readable : Readable tree ['c'] (Text.ofString "utf-8") (.plain document) :=
    ⟨by decide, by decide, Utf8.encode document, .plain document, by decide +kernel,
      by decide +kernel, by decide +kernel⟩
  have detected : detectKinds document = [.createFile] := by decide +kernel
  have extracted : (Pattern.ofKind .createFile).extract document = .ok [] := by decide +kernel
  obtain ⟨batches, -, -, -, -, -, -, silent⟩ := lines_of_run asks readable false fun _ => []
  refine ⟨detected, extracted, silent.mpr ?_, by decide +kernel⟩
  rw [Document.text_plain, detected]
  exact ⟨List.cons_ne_nil _ _, List.forall_mem_singleton.mpr extracted⟩

end CommandLine

end CommandFile
