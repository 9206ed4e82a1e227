import CommandFile.Proofs.Places
import CommandFile.Proofs.Words
import Mathlib.Data.List.Flatten

/-!
# Normal forms

The normal form of a path leaves out steps that stay where they are.  It leads to a folder
exactly where the path does, but it forgets a slash or a dot at the end, so it can lead to
a file where the path leads nowhere.
-/

namespace CommandFile

namespace Text

theorem pieces_append (separator : Char) (first second : Text) :
    pieces separator (first ++ separator :: second) =
      pieces separator first ++ pieces separator second := by
  induction first with
  | nil => simp [pieces]
  | cons character first ih =>
      by_cases same : character = separator
      · subst same
        rw [List.cons_append, pieces, if_pos rfl, ih, pieces, if_pos rfl, List.cons_append]
      · rw [List.cons_append, pieces, if_neg same, ih, pieces, if_neg same]
        cases parts : pieces separator first with
        | nil => exact absurd parts (pieces_ne_nil separator first)
        | cons piece others => rfl

theorem pieces_of_free {separator : Char} {text : Text} (free : separator ∉ text) :
    pieces separator text = [text] := by
  induction text with
  | nil => rfl
  | cons character text ih =>
      rw [List.mem_cons, not_or] at free
      rw [pieces, if_neg (Ne.symm free.1), ih free.2]

theorem free_of_mem_pieces {separator : Char} {text piece : Text}
    (inside : piece ∈ pieces separator text) : separator ∉ piece := by
  induction text generalizing piece with
  | nil =>
      obtain rfl := List.mem_singleton.mp inside
      simp
  | cons character text ih =>
      rw [pieces] at inside
      split at inside
      · rcases List.mem_cons.mp inside with rfl | later
        · simp
        · exact ih later
      · next other =>
          cases parts : pieces separator text with
          | nil => exact absurd parts (pieces_ne_nil separator text)
          | cons first others =>
              rw [parts] at inside ih
              rcases List.mem_cons.mp inside with rfl | later
              · exact List.not_mem_cons_of_ne_of_not_mem (Ne.symm other) (ih List.mem_cons_self)
              · exact ih (List.mem_cons_of_mem _ later)

theorem mem_join_iff {separator character : Char} (other : character ≠ separator)
    (texts : List Text) :
    character ∈ join [separator] texts ↔ ∃ text ∈ texts, character ∈ text := by
  induction texts with
  | nil => simp [join]
  | cons text texts ih =>
      cases texts with
      | nil => simp [join]
      | cons next texts =>
          rw [join_cons_cons, List.mem_append, List.mem_append, ih]
          simp [other]

theorem join_filter_sublist (separator : Text) (keep : Text → Bool) (texts : List Text) :
    (join separator (texts.filter keep)).Sublist (join separator texts) := by
  induction texts with
  | nil => exact List.Sublist.refl _
  | cons text texts ih =>
      cases texts with
      | nil => cases kept : keep text <;> simp [join, kept]
      | cons next texts =>
          have later : (join separator ((next :: texts).filter keep)).Sublist
              (separator ++ join separator (next :: texts)) :=
            ih.trans (List.sublist_append_right _ _)
          rw [join_cons_cons, List.append_assoc]
          cases kept : keep text with
          | false =>
              rw [List.filter_cons_of_neg (by simp [kept])]
              exact later.trans (List.sublist_append_right _ _)
          | true =>
              rw [List.filter_cons_of_pos kept]
              cases others : (next :: texts).filter keep with
              | nil => exact List.sublist_append_left _ _
              | cons other rest =>
                  rw [others] at ih
                  rw [join_cons_cons, List.append_assoc]
                  exact (List.Sublist.refl text).append ((List.Sublist.refl separator).append ih)

end Text

namespace Path

def IsPart (name : Name) : Prop := name ≠ [] ∧ '/' ∉ name

theorem isPart_of_mem_parts {name : Name} {text : Text} (inside : name ∈ parts text) :
    IsPart name :=
  ⟨ne_nil_of_mem_parts inside, Text.free_of_mem_pieces (List.mem_filter.mp inside).1⟩

@[simp] theorem parts_slash (text : Text) : parts ('/' :: text) = parts text := by
  simp [parts, Text.pieces]

@[simp] theorem parts_append (first second : Text) :
    parts (first ++ '/' :: second) = parts first ++ parts second := by
  rw [parts, Text.pieces_append, List.filter_append]
  rfl

theorem parts_of_isPart {name : Name} (part : IsPart name) : parts name = [name] := by
  simp [parts, Text.pieces_of_free part.2, part.1]

theorem parts_join {names : List Name} (each : ∀ name ∈ names, IsPart name) :
    parts (Text.join ['/'] names) = names := by
  induction names with
  | nil => rfl
  | cons name names ih =>
      obtain ⟨here, later⟩ := List.forall_mem_cons.mp each
      cases names with
      | nil => exact parts_of_isPart here
      | cons next names =>
          rw [Text.join_cons_cons, List.append_assoc, List.singleton_append, parts_append,
            parts_of_isPart here, ih later, List.singleton_append]

theorem exists_behind_root (written : Text) :
    ∃ rest, written = rootOf written ++ rest ∧ parts written = parts rest := by
  unfold rootOf
  split
  · next rest => exact ⟨'/' :: '/' :: rest, rfl, parts_slash _⟩
  · next rest _ => exact ⟨rest, rfl, by rw [parts_slash, parts_slash]⟩
  · next rest _ _ => exact ⟨rest, rfl, parts_slash rest⟩
  · exact ⟨written, rfl, rfl⟩

theorem parts_root (written : Text) (rest : Text) :
    parts (rootOf written ++ rest) = parts rest := by
  unfold rootOf
  split <;> simp [parts_slash]

theorem names_parse (written : Text) : (parse written).names = Tree.telling (parts written) := by
  refine List.filter_congr fun name inside => ?_
  simp [Name.Idle, ne_nil_of_mem_parts inside]

theorem telling_steps (written : Text) :
    Tree.telling (steps written) = (parse written).names := by
  rw [names_parse]
  unfold steps
  split
  · next none => rw [none]
  · split
    · rw [Tree.telling_append]
      exact List.append_nil _
    · rfl

theorem isPart_of_mem_names {written : Text} {name : Name}
    (inside : name ∈ (parse written).names) : IsPart name :=
  isPart_of_mem_parts (List.mem_filter.mp inside).1

theorem join_ne_nil {name : Name} (part : IsPart name) (names : List Name) :
    Text.join ['/'] (name :: names) ≠ [] := by
  cases names with
  | nil => exact part.1
  | cons next names => simp [Text.join_cons_cons]

theorem slash_join {names : List Name} (each : ∀ name ∈ names, IsPart name) :
    (Text.join ['/'] names).getLast? ≠ some '/' := by
  induction names with
  | nil => simp [Text.join]
  | cons name names ih =>
      obtain ⟨here, later⟩ := List.forall_mem_cons.mp each
      cases names with
      | nil => exact fun last => here.2 (List.mem_of_getLast? last)
      | cons next names =>
          have behind : (Text.join ['/'] (next :: names)).getLast? ≠ none :=
            mt List.getLast?_eq_none_iff.mp (join_ne_nil (later next List.mem_cons_self) names)
          obtain ⟨last, ends⟩ := Option.ne_none_iff_exists'.mp behind
          rw [Text.join_cons_cons, List.getLast?_append, ends, Option.some_or, ← ends]
          exact ih later

theorem text_eq {path : Path} (written : path.root ++ Text.join ['/'] path.names ≠ []) :
    path.text = path.root ++ Text.join ['/'] path.names := by
  unfold text
  split
  · next none => exact absurd none written
  · rfl

theorem parts_normalize (written : Text) :
    (parse written).names ≠ [] ∧ parts (normalize written) = (parse written).names ∧
        Tree.slash (normalize written) = false ∨
      (parse written).names = [] ∧ parts (normalize written) ⊆ [Name.here] := by
  have each : ∀ name ∈ (parse written).names, IsPart name := fun _ => isPart_of_mem_names
  cases names : (parse written).names with
  | nil =>
      refine .inr ⟨rfl, ?_⟩
      cases root : rootOf written with
      | nil =>
          have dot : normalize written = Name.here := by
            simp [normalize, text, names, Text.join, show (parse written).root = [] from root]
          rw [dot]
          decide
      | cons first others =>
          have slashes : normalize written = rootOf written := by
            have some : (parse written).root ++ Text.join ['/'] (parse written).names ≠ [] := by
              simp [show (parse written).root = _ from root]
            have whole := text_eq some
            rwa [names, Text.join, List.append_nil] at whole
          have none : parts (rootOf written) = [] := by
            simpa [parts, Text.pieces] using parts_root written []
          simp [slashes, none]
  | cons name others =>
      refine .inl ⟨List.cons_ne_nil _ _, ?_⟩
      rw [names] at each
      have named := join_ne_nil (each name List.mem_cons_self) others
      have whole : normalize written = rootOf written ++ Text.join ['/'] (name :: others) := by
        have some : (parse written).root ++ Text.join ['/'] (parse written).names ≠ [] := by
          simp [names, named]
        have joined := text_eq some
        rwa [names] at joined
      have unclosed : (normalize written).getLast? ≠ some '/' := by
        obtain ⟨last, ends⟩ := Option.ne_none_iff_exists'.mp (mt List.getLast?_eq_none_iff.mp named)
        rw [whole, List.getLast?_append, ends, Option.some_or, ← ends]
        exact slash_join each
      exact ⟨by rw [whole, parts_root, parts_join each], decide_eq_false unclosed⟩

theorem steps_normalize (written : Text) :
    (parse written).names ≠ [] ∧ steps (normalize written) = (parse written).names ∨
      (parse written).names = [] ∧ ∀ step ∈ steps (normalize written), step.Idle := by
  rcases parts_normalize written with ⟨named, same, unclosed⟩ | ⟨none, dots⟩
  · refine .inl ⟨named, ?_⟩
    obtain ⟨names, name, whole⟩ := (List.eq_nil_or_concat (parse written).names).resolve_left named
    rw [List.concat_eq_append] at whole
    rw [Tree.steps_eq (same.trans whole), unclosed, whole]
    rfl
  · refine .inr ⟨none, fun step inside => ?_⟩
    unfold steps at inside
    split at inside
    · nomatch inside
    · split at inside
      · rcases List.mem_append.mp inside with part | slash
        · exact .inr (by simpa using dots part)
        · exact .inl (by simpa using slash)
      · exact .inr (by simpa using dots inside)

theorem normalize_cases (written : Text) :
    normalize written = Name.here ∨
      normalize written ≠ [] ∧ (normalize written).Sublist written := by
  by_cases blank : (parse written).root ++ Text.join ['/'] (parse written).names = []
  · left
    rw [normalize, text, blank]
  · right
    obtain ⟨rest, whole, same⟩ := exists_behind_root written
    have joined : (Text.join ['/'] (parse written).names).Sublist rest := by
      have names : (parse written).names =
          (Text.pieces '/' rest).filter fun name => name ≠ [] && name ≠ Name.here := by
        rw [parse, same, parts, List.filter_filter]
        exact List.filter_congr fun name _ => by simp [Bool.and_comm]
      rw [names]
      conv => rhs; rw [← Text.join_pieces '/' rest]
      exact Text.join_filter_sublist _ _ _
    rw [normalize, text_eq blank]
    refine ⟨blank, ?_⟩
    conv => rhs; rw [whole]
    exact (List.Sublist.refl _).append joined

theorem mem_normalize {character : Char} {written : Text} (inside : character ∈ written)
    (noSlash : character ≠ '/') (noDot : character ≠ '.') : character ∈ normalize written := by
  rw [← Text.join_pieces '/' written, Text.mem_join_iff noSlash] at inside
  obtain ⟨name, piece, inName⟩ := inside
  have named : name ∈ (parse written).names := by
    refine List.mem_filter.mpr ⟨List.mem_filter.mpr ⟨piece, ?_⟩, ?_⟩
    · simpa using List.ne_nil_of_mem inName
    · refine decide_eq_true fun same => noDot ?_
      rw [same] at inName
      exact List.mem_singleton.mp inName
  have joined : character ∈ (parse written).root ++ Text.join ['/'] (parse written).names :=
    List.mem_append_right _ ((Text.mem_join_iff noSlash _).mpr ⟨name, named, inName⟩)
  rwa [normalize, text_eq (List.ne_nil_of_mem joined)]

theorem screen_sublist {path other : Text} (screened : Tree.screen path = .ok ())
    (some : other ≠ []) (less : other.Sublist path) : Tree.screen other = .ok () := by
  have short : ¬ tooMany ≤ (Utf8.encode path).length := by
    intro long
    unfold Tree.screen at screened
    split at screened
    · nomatch screened
    · nomatch screened
  have shorter : (Utf8.encode other).length ≤ (Utf8.encode path).length :=
    (less.flatMap Utf8.encodeChar).length_le
  rw [Tree.screen, if_neg some, if_neg (by omega)]

theorem screen_normalize {written : Text} (screened : Tree.screen written = .ok ()) :
    Tree.screen (normalize written) = .ok () := by
  rcases normalize_cases written with dot | ⟨some, less⟩
  · rw [dot]
    decide
  · exact screen_sublist screened some less

/-! ## Paths in normal form -/

structure Normal (path : Path) : Prop where
  root : ∃ written, path.root = rootOf written
  names : ∀ name ∈ path.names, IsPart name ∧ name ≠ Name.here

theorem normal_parse (written : Text) : (parse written).Normal where
  root := ⟨written, rfl⟩
  names := fun name inside =>
    ⟨isPart_of_mem_names inside, by simpa using (List.mem_filter.mp inside).2⟩

theorem Normal.parent {path : Path} (normal : path.Normal) : path.parent.Normal where
  root := normal.root
  names := fun name inside => normal.names name ((List.dropLast_prefix _).subset inside)

theorem rootOf_append (written : Text) {rest : Text} (solid : rest.head? ≠ some '/') :
    rootOf (rootOf written ++ rest) = rootOf written := by
  have root : rootOf written = ['/'] ∨ rootOf written = ['/', '/'] ∨ rootOf written = [] := by
    unfold rootOf
    split <;> simp
  cases rest with
  | nil => rcases root with same | same | same <;> rw [same] <;> rfl
  | cons first rest =>
      have first_ne : first ≠ '/' := by simpa using solid
      rcases root with same | same | same <;> rw [same] <;> simp [rootOf, first_ne]

theorem head_join {names : List Name} (each : ∀ name ∈ names, IsPart name) :
    (Text.join ['/'] names).head? ≠ some '/' := by
  cases names with
  | nil => simp [Text.join]
  | cons name names =>
      obtain ⟨some, free⟩ := each name List.mem_cons_self
      have first : (Text.join ['/'] (name :: names)).head? = name.head? := by
        cases names with
        | nil => rfl
        | cons next names =>
            rw [Text.join_cons_cons, List.append_assoc, List.head?_append_of_ne_nil _ some]
      rw [first]
      exact fun slash => free (List.mem_of_mem_head? slash)

theorem Normal.parse_text {path : Path} (normal : path.Normal) : parse path.text = path := by
  obtain ⟨root, names⟩ := path
  obtain ⟨written, rfl⟩ := normal.root
  have each : ∀ name ∈ names, IsPart name := fun name inside => (normal.names name inside).1
  have kept : names.filter (· ≠ Name.here) = names :=
    List.filter_eq_self.mpr fun name inside => by simpa using (normal.names name inside).2
  by_cases blank : rootOf written ++ Text.join ['/'] names = []
  · obtain ⟨rootless, joined⟩ := List.append_eq_nil_iff.mp blank
    have none : names = [] := by
      rw [← parts_join each, joined]
      rfl
    subst none
    rw [rootless]
    rfl
  · rw [text_eq blank, parse, rootOf_append written (head_join each), parts_root,
      parts_join each, kept]

theorem Normal.steps_text {path : Path} (normal : path.Normal) :
    path.names ≠ [] ∧ steps path.text = path.names ∨
      path.names = [] ∧ ∀ step ∈ steps path.text, step.Idle := by
  have steps := steps_normalize path.text
  rwa [normalize, normal.parse_text] at steps

theorem join_prefix_concat (names : List Name) (name : Name) :
    Text.join ['/'] names <+: Text.join ['/'] (names ++ [name]) := by
  induction names with
  | nil => exact List.nil_prefix
  | cons first names ih =>
      cases names with
      | nil => exact ⟨['/'] ++ name, by simp [Text.join]⟩
      | cons next names =>
          rw [List.cons_append, List.cons_append, Text.join_cons_cons, Text.join_cons_cons]
          exact (List.prefix_append_right_inj _).mpr ih

theorem text_parent_cases (path : Path) :
    path.parent.text = Name.here ∨ path.parent.text ≠ [] ∧ path.parent.text <+: path.text := by
  by_cases blank : path.root ++ Text.join ['/'] path.parent.names = []
  · left
    rw [text, show path.parent.root = path.root from rfl, blank]
  · right
    have shorter : Text.join ['/'] path.parent.names <+: Text.join ['/'] path.names := by
      rcases List.eq_nil_or_concat path.names with none | ⟨names, name, whole⟩
      · rw [parent, none]
        exact List.prefix_rfl
      · rw [parent, whole, List.concat_eq_append, List.dropLast_concat]
        exact join_prefix_concat names name
    have less := (List.prefix_append_right_inj path.root).mpr shorter
    have some : path.root ++ Text.join ['/'] path.names ≠ [] := fun none => by
      rw [none] at less
      exact blank (List.prefix_nil.mp less)
    have whole : path.parent.text = path.root ++ Text.join ['/'] path.parent.names := text_eq blank
    rw [text_eq some, whole]
    exact ⟨blank, less⟩

theorem screen_parent {path : Path} (screened : Tree.screen path.text = .ok ()) :
    Tree.screen path.parent.text = .ok () := by
  rcases text_parent_cases path with dot | ⟨some, less⟩
  · rw [dot]
    decide
  · exact screen_sublist screened some less.sublist

end Path

namespace Tree

@[simp] theorem telling_telling (names : List Name) : telling (telling names) = telling names := by
  simp [telling, List.filter_filter]

/-- Without the idle steps a walk goes the same way, but at the end an idle step asks for
a folder. -/
theorem walk_telling (tree : Tree) (links : Nat) (folder : Location) (steps : List Name) :
    tree.walk false links folder steps = tree.walk false links folder (telling steps) ∨
      tree.walk false links folder steps =
        (tree.walk false links folder (telling steps)).bind Landing.closed := by
  -- The last telling step is looked for, since what is idle behind it makes the difference.
  rcases List.eq_nil_or_concat (telling steps) with none | ⟨names, last, told⟩
  · have stay : ∀ step ∈ steps, step.Idle := by
      simpa [telling, List.filter_eq_nil_iff] using none
    left
    rw [none, walk_of_idle stay, walk_nil]
  · rw [List.concat_eq_append] at told
    obtain ⟨before, rest, rfl, toldBefore, toldRest⟩ := List.filter_eq_append_iff.mp told
    obtain ⟨idles, after, rfl, stay, toldAfter⟩ := exists_of_telling_eq_cons toldRest
    have stayAfter : ∀ step ∈ after, step.Idle := by
      simpa [telling, List.filter_eq_nil_iff] using toldAfter
    have same : telling (before ++ idles) = telling names := by
      have ahead : telling idles = [] := by simpa [telling, List.filter_eq_nil_iff] using stay
      rw [telling_append, ahead, List.append_nil, ← telling_telling before]
      exact congrArg telling toldBefore
    have further := further_of_not_creating (List.cons_ne_nil last after)
    rw [told, ← List.append_assoc, walk_of_telling further links folder names same]
    cases after with
    | nil => exact .inl rfl
    | cons next after =>
        right
        rw [← walk_closed (List.cons_ne_nil next after) stayAfter, List.append_assoc,
          List.singleton_append]

variable {tree : Tree} {path : Text}

theorem status_of_screened (screened : screen path = .ok ()) :
    tree.status path =
      (tree.walk false linkLimit [] (Path.steps path)).bind Landing.entry := by
  rw [status_eq, land_of_screened screened]

/-- The walk along a path is the walk along its normal form, or it asks for a folder at
the end of it. -/
theorem walk_normalize (tree : Tree) (links : Nat) (folder : Location) (path : Text) :
    let along := tree.walk false links folder (Path.steps path)
    let normal := tree.walk false links folder (Path.steps (Path.normalize path))
    along = normal ∨ along = normal.bind Landing.closed := by
  intro along normal
  have told : normal = tree.walk false links folder (telling (Path.steps path)) := by
    rw [Path.telling_steps]
    rcases Path.steps_normalize path with ⟨-, same⟩ | ⟨none, stay⟩
    · rw [← same]
    · rw [none, walk_nil]
      exact walk_of_idle stay
  rw [told]
  exact tree.walk_telling links folder (Path.steps path)

theorem entry_closed (landing : Landing) :
    landing.closed.bind Landing.entry = .ok .folder ↔ landing.entry = .ok .folder := by
  cases landing with
  | absent folder name => simp [Landing.closed, Landing.entry, Except.bind]
  | present location entry =>
      cases entry <;> simp [Landing.closed, Landing.entry, Except.bind]

theorem entry_closed_ne_file (landing : Landing) (content : Bytes) :
    landing.closed.bind Landing.entry ≠ .ok (.file content) := by
  cases landing with
  | absent folder name => nofun
  | present location entry => cases entry <;> nofun

theorem status_normalize_eq_folder (screened : screen path = .ok ()) :
    tree.status (Path.normalize path) = .ok .folder ↔ tree.status path = .ok .folder := by
  rw [status_of_screened screened, status_of_screened (Path.screen_normalize screened)]
  rcases tree.walk_normalize linkLimit [] path with same | closed
  · rw [same]
  · rw [closed]
    cases tree.walk false linkLimit [] (Path.steps (Path.normalize path)) with
    | error errno => rfl
    | ok landing => exact (entry_closed landing).symm

theorem screen_of_status {entry : Entry} (found : tree.status path = .ok entry) :
    screen path = .ok () := by
  rw [status_eq] at found
  cases lands : tree.land false path with
  | error errno =>
      rw [lands] at found
      nomatch found
  | ok landing => exact screen_of_land lands

theorem status_normalize_of_file {content : Bytes}
    (found : tree.status path = .ok (.file content)) :
    tree.status (Path.normalize path) = .ok (.file content) := by
  have screened := screen_of_status found
  rw [status_of_screened screened] at found
  rw [status_of_screened (Path.screen_normalize screened)]
  rcases tree.walk_normalize linkLimit [] path with same | closed
  · rwa [← same]
  · -- A closed landing is a folder or none.
    rw [closed] at found
    cases ends : tree.walk false linkLimit [] (Path.steps (Path.normalize path)) with
    | error errno =>
        rw [ends] at found
        nomatch found
    | ok landing =>
        rw [ends] at found
        exact absurd found (entry_closed_ne_file landing content)

theorem status_of_status_normalize (screened : screen path = .ok ())
    (missing : tree.status (Path.normalize path) = .error .noEntry) :
    tree.status path = .error .noEntry := by
  rw [status_of_screened (Path.screen_normalize screened)] at missing
  rw [status_of_screened screened]
  rcases tree.walk_normalize linkLimit [] path with same | closed
  · rwa [same]
  · rw [closed]
    cases ends : tree.walk false linkLimit [] (Path.steps (Path.normalize path)) with
    | error errno =>
        rw [ends] at missing
        exact missing
    | ok landing =>
        rw [ends] at missing
        cases landing with
        | absent folder name => rfl
        | present location entry => nomatch missing

theorem closed_of_spot_normalize {folder : Location} {name : Name} {closed : Bool}
    (spotted : tree.spot (Path.normalize path) = .ok ⟨folder, .name name, closed⟩) :
    closed = false := by
  obtain ⟨-, solid, rfl, names, parts, -⟩ := spot_eq_name_iff.mp spotted
  rcases Path.parts_normalize path with ⟨-, -, unclosed⟩ | ⟨-, dots⟩
  · exact unclosed
  · have dot : name ∈ [Name.here] := dots (parts ▸ List.mem_concat_self)
    exact absurd (.inr (List.mem_singleton.mp dot)) solid.1

theorem spot_normalize {folder : Location} {name : Name}
    (spotted : tree.spot path = .ok ⟨folder, .name name, false⟩) :
    tree.spot (Path.normalize path) = .ok ⟨folder, .name name, false⟩ := by
  obtain ⟨screened, solid, -, names, parts, ends⟩ := spot_eq_name_iff.mp spotted
  have told : (Path.parse path).names = telling names ++ [name] := by
    rw [Path.names_parse, parts, telling_append, telling, telling,
      List.filter_cons_of_pos (by simpa using solid.1), List.filter_nil]
  rcases Path.parts_normalize path with ⟨-, same, unclosed⟩ | ⟨none, -⟩
  · have further := further_of_not_creating (List.cons_ne_nil Name.here [])
    refine spot_eq_name_iff.mpr ⟨Path.screen_normalize screened, solid, unclosed.symm,
      telling names, same.trans told, ?_⟩
    rwa [walk_of_telling further linkLimit [] names (telling_telling names)]
  · rw [told] at none
    exact absurd none (List.append_ne_nil_of_right_ne_nil _ (List.cons_ne_nil _ _))

theorem status_parent {path : Path} (normal : path.Normal) (reached : tree.goal? path.text ≠ none) :
    tree.status path.parent.text = .ok .folder := by
  have screened : screen path.text = .ok () := by
    cases lands : tree.land true path.text with
    | error errno =>
        rw [goal?, lands] at reached
        exact absurd rfl reached
    | ok landing => exact screen_of_land lands
  rw [goal?, land_of_screened screened] at reached
  rcases normal.steps_text with ⟨above, steps⟩ | ⟨-, stay⟩
  · obtain ⟨names, name, whole⟩ := (List.eq_nil_or_concat path.names).resolve_left above
    rw [List.concat_eq_append] at whole
    have part := normal.names name (whole ▸ List.mem_concat_self)
    have further : Further true [name] :=
      ⟨List.cons_ne_nil _ _, fun closes => part.1.1 (List.cons.inj closes.2).1⟩
    have asks := further_of_not_creating (List.cons_ne_nil Name.here [])
    rw [status_of_screened (Path.screen_parent screened)]
    rw [steps, whole] at reached
    rcases tree.walk_append linkLimit [] names with ⟨errno, stops⟩ | ⟨left, folder, comes⟩
    · rw [stops true _ further] at reached
      exact absurd rfl reached
    · have here := comes false _ asks
      rw [walk_idle (.inr rfl), walk_nil, walk_closed (List.cons_ne_nil _ _) (by simp [Name.Idle])]
        at here
      have ends : ∃ folder, tree.walk false linkLimit [] names = .ok (.present folder .folder) := by
        cases walked : tree.walk false linkLimit [] names with
        | error errno =>
            rw [walked] at here
            cases here
        | ok landing =>
            rw [walked] at here
            cases landing with
            | absent reached name => cases here
            | present reached entry =>
                cases entry with
                | folder => exact ⟨reached, rfl⟩
                | file content => cases here
                | link target => cases here
      have parent : path.parent.names = names := by rw [Path.parent, whole, List.dropLast_concat]
      rcases normal.parent.steps_text with ⟨-, same⟩ | ⟨-, stay⟩
      · obtain ⟨folder, ends⟩ := ends
        rw [same, parent, ends]
        rfl
      · rw [walk_of_idle stay]
        rfl
  · rw [walk_of_idle stay] at reached
    exact absurd rfl reached

end Tree

end CommandFile
