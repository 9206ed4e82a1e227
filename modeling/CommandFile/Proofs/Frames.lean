import CommandFile.Proofs.Markers
import CommandFile.Statement.Written

/-!
# Frames

The frame of a line is its fixed words, with gaps for its paths.  A marker that fits
nowhere into the frame, and that no path and no body of the line holds, does not stand in
the line at all.
-/

namespace CommandFile

/-- Words that stand in a line with spaces between them, and gaps for its paths. -/
abbrev Frame := List (Option Text)

namespace Frame

def fill : Frame → List Text → List Text
  | [], _ => []
  | some word :: frame, paths => word :: fill frame paths
  | none :: frame, path :: paths => path :: fill frame paths
  | none :: _, [] => []

def Fits (place : Option Text) (part : Text) : Prop := ∀ word ∈ place, word = part

theorem mem_fill {frame : Frame} {paths : List Text} {part : Text}
    (inside : part ∈ frame.fill paths) : some part ∈ frame ∨ part ∈ paths := by
  fun_induction fill frame paths with
  | case1 paths => simp at inside
  | case2 word frame paths ih =>
      rcases List.mem_cons.mp inside with rfl | later
      · exact .inl List.mem_cons_self
      · exact (ih later).imp_left (List.mem_cons_of_mem _)
  | case3 frame path paths ih =>
      rcases List.mem_cons.mp inside with rfl | later
      · exact .inr List.mem_cons_self
      · exact (ih later).imp (List.mem_cons_of_mem _) (List.mem_cons_of_mem _)
  | case4 frame => simp at inside

theorem fill_eq_cons {frame : Frame} {paths parts : List Text} {part : Text}
    (filled : frame.fill paths = part :: parts) :
    ∃ place others more, frame = place :: others ∧ Fits place part ∧
      parts = fill others more := by
  fun_cases fill frame paths with
  | case1 paths => simp [fill] at filled
  | case2 word frame paths =>
      obtain ⟨rfl, rfl⟩ := List.cons.inj filled
      exact ⟨_, frame, paths, rfl, by simp [Fits], rfl⟩
  | case3 frame path paths =>
      obtain ⟨rfl, rfl⟩ := List.cons.inj filled
      exact ⟨_, frame, paths, rfl, by simp [Fits], rfl⟩
  | case4 frame => simp [fill] at filled

theorem neighbours_fill {frame : Frame} {paths : List Text} {neighbours : Text × Text}
    (inside : neighbours ∈ (frame.fill paths).zip (frame.fill paths).tail) :
    ∃ places ∈ frame.zip frame.tail,
      Fits places.1 neighbours.1 ∧ Fits places.2 neighbours.2 := by
  induction frame generalizing paths with
  | nil => simp [fill] at inside
  | cons place frame ih =>
      cases filled : fill (place :: frame) paths with
      | nil => simp [filled] at inside
      | cons part parts =>
          obtain ⟨_, _, more, same, fits, rfl⟩ := fill_eq_cons filled
          obtain ⟨rfl, rfl⟩ := List.cons.inj same
          rw [filled, List.tail_cons] at inside
          cases next : fill frame more with
          | nil => simp [next] at inside
          | cons other others =>
              obtain ⟨place', frame', _, rfl, fits', -⟩ := fill_eq_cons next
              rw [next, List.zip_cons_cons] at inside
              rcases List.mem_cons.mp inside with rfl | later
              · exact ⟨(place, place'), List.mem_cons_self, fits, fits'⟩
              · have inRest : neighbours ∈
                    (fill (place' :: frame') more).zip (fill (place' :: frame') more).tail := by
                  rwa [next, List.tail_cons]
                obtain ⟨places, among, touching⟩ := ih inRest
                exact ⟨places, List.mem_cons_of_mem _ among, touching⟩

end Frame

/-! ## The frames of the kinds -/

def Naming.frame : Naming → Frame
  | .unnamed => []
  | .file => [some (Text.ofString "FILE")]
  | .folder => [some (Text.ofString "FOLDER")]

def Kind.frame (naming : Naming) (kind : Kind) : Frame :=
  let word := fun text => some (Text.ofString text)
  match kind with
  | .createFolder => [word "CREATE", word "FOLDER", none]
  | .createFile => [word "CREATE", word "FILE", none]
  | .write => [word "WRITE", word "TO", none, word "THIS", word "CONTENT:"]
  | .append => [word "APPEND", word "TO", none, word "THIS", word "CONTENT:"]
  | .rename => [word "RENAME", none, word "TO", none]
  | .deleteFile => [word "DELETE", word "FILE", none]
  | .deleteFolder => [word "DELETE", word "FOLDER", none]
  | .deleteForce => word "DELETE" :: (naming.frame ++ [none, word "FORCE"])

theorem Naming.word_eq (naming : Naming) :
    naming.word =
      match naming with
      | .unnamed => []
      | .file => Text.ofString "FILE" ++ [' ']
      | .folder => Text.ofString "FOLDER" ++ [' '] := by
  cases naming <;> rfl

theorem Form.keyword_eq (kind : Kind) :
    (ofKind kind).keyword =
      match kind with
      | .createFolder => Text.ofString "CREATE" ++ ' ' :: (Text.ofString "FOLDER" ++ [' '])
      | .createFile => Text.ofString "CREATE" ++ ' ' :: (Text.ofString "FILE" ++ [' '])
      | .write => Text.ofString "WRITE" ++ ' ' :: Text.ofString "TO"
      | .append => Text.ofString "APPEND" ++ ' ' :: Text.ofString "TO"
      | .rename => Text.ofString "RENAME" ++ [' ']
      | .deleteFile => Text.ofString "DELETE" ++ ' ' :: (Text.ofString "FILE" ++ [' '])
      | .deleteFolder => Text.ofString "DELETE" ++ ' ' :: (Text.ofString "FOLDER" ++ [' '])
      | .deleteForce => Text.ofString "DELETE" ++ [' '] := by
  cases kind <;> rfl

theorem Form.contentWord_eq :
    contentWord = Text.ofString "THIS" ++ ' ' :: Text.ofString "CONTENT:" := rfl

theorem Form.toWord_eq : toWord = ' ' :: (Text.ofString "TO" ++ [' ']) := rfl

theorem Form.forceWord_eq : forceWord = ' ' :: Text.ofString "FORCE" := rfl

namespace Line

def frame (line : Line) : Frame := line.statement.kind.frame line.naming

def spaced (line : Line) : Text := Text.join [' '] (line.frame.fill line.statement.paths)

def ending (line : Line) : Text :=
  match line.statement.body? with
  | some body => List.replicate line.gap ' ' ++ '"' :: (body ++ ['"'])
  | none => []

theorem segment_eq (line : Line) : line.segment = line.spaced ++ line.ending := by
  obtain ⟨statement, gap, naming⟩ := line
  cases statement with
  | deleteForce path =>
      cases naming <;>
        simp only [segment, inner, spaced, ending, frame, Kind.frame, Naming.frame, Frame.fill,
          Statement.kind, Statement.paths, Statement.args, Statement.body?, Form.keyword_eq,
          Naming.word_eq, Form.forceWord_eq, Text.join_cons_cons, Text.join, List.append_assoc,
          List.cons_append, List.nil_append, List.append_nil]
  | _ =>
      simp only [segment, inner, spaced, ending, frame, Kind.frame, Frame.fill, Statement.kind,
        Statement.paths, Statement.args, Statement.body?, Form.keyword_eq, Line.content,
        Form.contentWord_eq, Form.toWord_eq, Text.join_cons_cons, Text.join, List.append_assoc,
        List.cons_append, List.nil_append, List.append_nil]

theorem infix_of_segment {line : Line} {word : Text} (quoteless : '"' ∉ word)
    (solid : word.getLast? ≠ some ' ') (inside : word <:+: line.segment) :
    word <:+: line.spaced ∨ ∃ body ∈ line.statement.body?, word <:+: body := by
  rw [segment_eq, ending] at inside
  split at inside
  · next body hasBody =>
      rw [← List.append_assoc] at inside
      rcases Text.infix_beside quoteless inside with start | rest
      · exact .inl (Text.infix_padded solid start)
      · rcases Text.infix_beside quoteless rest with within | last
        · exact .inr ⟨body, hasBody, within⟩
        · exact .inl (by rw [List.infix_nil.mp last]; exact List.nil_infix)
  · exact .inl (by rwa [List.append_nil] at inside)

end Line

/-! ## Phrases -/

inductive Phrase
  | single (word : Text)
  | pair (first second : Text)

namespace Phrase

def text : Phrase → Text
  | .single word => word
  | .pair first second => first ++ ' ' :: second

def Proper : Phrase → Prop
  | .single word => ' ' ∉ word ∧ word ≠ []
  | .pair first second => ' ' ∉ first ∧ ' ' ∉ second

/-- The phrase is in no word of the frame, and it begins in no word with the next one
going on.  What fills a gap could begin it or go on. -/
def Misses : Phrase → Frame → Prop
  | .single word, frame => ∀ place ∈ frame, ∀ fixed ∈ place, ¬ word <:+: fixed
  | .pair first second, frame =>
      (∀ place ∈ frame, ∀ fixed ∈ place, ¬ first ++ ' ' :: second <:+: fixed) ∧
        ∀ places ∈ frame.zip frame.tail,
          ¬ ((∀ fixed ∈ places.1, first <:+ fixed) ∧ ∀ fixed ∈ places.2, second <+: fixed)

instance (phrase : Phrase) : Decidable phrase.Proper :=
  match phrase with
  | .single _ => inferInstanceAs (Decidable (_ ∧ _))
  | .pair _ _ => inferInstanceAs (Decidable (_ ∧ _))

instance (phrase : Phrase) (frame : Frame) : Decidable (phrase.Misses frame) :=
  match phrase with
  | .single _ => inferInstanceAs (Decidable (∀ place ∈ frame, ∀ fixed ∈ place, _))
  | .pair _ _ =>
      inferInstanceAs (Decidable ((∀ place ∈ frame, ∀ fixed ∈ place, _) ∧
        ∀ places ∈ frame.zip frame.tail, _))

theorem not_infix_spaced {phrase : Phrase} (proper : phrase.Proper) {line : Line}
    (misses : phrase.Misses line.frame)
    (free : ∀ path ∈ line.statement.paths, ¬ phrase.text <:+: path) :
    ¬ phrase.text <:+: line.spaced := by
  intro inside
  cases phrase with
  | single word =>
      obtain ⟨part, among, within⟩ := Text.infix_spaced proper.1 proper.2 inside
      rcases Frame.mem_fill among with fixed | path
      · exact misses _ fixed part rfl within
      · exact free part path within
  | pair first second =>
      rcases Text.infix_spaced_pair proper.1 proper.2 inside with
        ⟨part, among, within⟩ | ⟨neighbours, among, ending, start⟩
      · rcases Frame.mem_fill among with fixed | path
        · exact misses.1 _ fixed part rfl within
        · exact free part path within
      · obtain ⟨places, between, fits, fitsToo⟩ := Frame.neighbours_fill among
        refine misses.2 places between ⟨fun fixed here => ?_, fun fixed here => ?_⟩
        · rwa [fits fixed here]
        · rwa [fitsToo fixed here]

end Phrase

namespace Kind

def telling (kind other : Kind) : Phrase :=
  let single := fun word => Phrase.single (Text.ofString word)
  let pair := fun first second => Phrase.pair (Text.ofString first) (Text.ofString second)
  match kind with
  | .createFolder => pair "CREATE" "FOLDER"
  | .createFile => pair "CREATE" "FILE"
  | .write => if other = .append then pair "WRITE" "TO" else pair "THIS" "CONTENT:"
  | .append => if other = .write then pair "APPEND" "TO" else pair "THIS" "CONTENT:"
  | .rename => single "RENAME"
  | .deleteFile => pair "DELETE" "FILE"
  | .deleteFolder => pair "DELETE" "FOLDER"
  | .deleteForce => single "FORCE"

theorem telling_mem_markers (kind other : Kind) :
    (kind.telling other).text ∈ (Pattern.ofKind kind).markers := by
  cases kind <;> dsimp only [telling] <;> first | decide +kernel | split <;> decide +kernel

theorem telling_proper (kind other : Kind) : (kind.telling other).Proper := by
  cases kind <;> dsimp only [telling] <;> first | decide +kernel | split <;> decide +kernel

theorem telling_solid (kind other : Kind) : (kind.telling other).text.getLast? ≠ some ' ' := by
  cases kind <;> dsimp only [telling] <;> first | decide +kernel | split <;> decide +kernel

theorem exists_reserved_of_telling (kind other : Kind) :
    ∃ word ∈ reservedWords, word <:+: (kind.telling other).text := by
  cases kind <;> dsimp only [telling] <;> first | decide +kernel | split <;> decide +kernel

theorem telling_misses {kind other : Kind} (differs : kind ≠ other)
    (unforced : other = .deleteForce → kind ≠ .deleteFile ∧ kind ≠ .deleteFolder)
    (naming : Naming) : (kind.telling other).Misses (other.frame naming) := by
  cases other with
  | deleteForce =>
      cases kind <;> cases naming <;> first | decide +kernel | simp at differs unforced
  | _ =>
      dsimp only [frame]
      cases kind <;> first | decide +kernel | exact absurd rfl differs

end Kind

end CommandFile
