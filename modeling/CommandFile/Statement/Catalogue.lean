import CommandFile.Statement.Matcher
import CommandFile.Statement.Form

/-!
# Further matchers

Matchers for statements outside the built-in kinds.  They serve patterns with several
matchers, with slots that may stay empty and with slots in another order.
-/

namespace CommandFile.Matcher

/-- A match that begins with a word; `read` continues behind it and says how far it
came. -/
def behindWord (word : Text) (read : Text → Option (Nat × List Capture)) (text : Text) :
    Option Match :=
  (text.after? word).bind fun rest =>
    (read rest).map fun found =>
      { length := word.length + found.1
        captures := found.2.map fun capture =>
          { capture with offset := word.length + capture.offset } }

def writePath : Matcher where
  slots := [.path]
  matchAt := behindWord (Text.ofString "WRITE TO ") fun rest =>
    let closing := Text.ofString " THIS"
    (Form.shortestPath? (Text.after? · closing) rest).map fun found =>
      (found.1.length + closing.length, [⟨.path, 0, found.1⟩])

/-- A quoted body without quotation marks in it, ended by a semicolon. -/
def quotedBody : Matcher where
  slots := [.body]
  matchAt := behindWord ['"'] fun rest =>
    let body := rest.takeWhile fun character =>
      character ≠ '"' && character ≠ terminator
    match rest.drop body.length with
    | '"' :: ';' :: _ => some (body.length + 2, [⟨.body, 0, body⟩])
    | _ => none

def wordBeforeTerminator? (text : Text) : Option Text :=
  let word := text.takeWhile fun character => !Text.isBlankChar character
  match (word.reverse.dropWhile (· ≠ terminator)).drop 1 with
  | [] => none
  | kept => some kept.reverse

/-- Two words without white space; the second one may hold semicolons. -/
def renameWords : Matcher where
  slots := [.path, .newPath]
  matchAt := behindWord (Text.ofString "RENAME ") fun rest =>
    let path := rest.takeWhile fun character => !Text.isBlankChar character
    if path = [] then
      none
    else
      ((Text.after? (rest.drop path.length) Form.toWord).bind
        wordBeforeTerminator?).map fun newPath =>
          (path.length + Form.toWord.length + newPath.length + 1,
            [⟨.path, 0, path⟩, ⟨.newPath, path.length + Form.toWord.length, newPath⟩])

def noSlots : Matcher where
  slots := []
  matchAt := behindWord Form.contentWord fun _ => some (0, [])

def lowerWord? (text : Text) : Option Text :=
  match text.takeWhile fun character => 'a' ≤ character && character ≤ 'z' with
  | [] => none
  | word => some word

def optionalTo : Matcher where
  slots := [.path, .newPath]
  matchAt := behindWord (Text.ofString "MOVE ") fun rest =>
    (lowerWord? rest).bind fun path =>
      match rest.drop path.length with
      | ';' :: _ => some (path.length + 1, [⟨.path, 0, path⟩, ⟨.newPath, 0, []⟩])
      | others =>
          (Text.after? others Form.toWord).bind fun behind =>
            (lowerWord? behind).bind fun newPath =>
              match behind.drop newPath.length with
              | ';' :: _ =>
                  let offset := path.length + Form.toWord.length
                  some (offset + newPath.length + 1,
                    [⟨.path, 0, path⟩, ⟨.newPath, offset, newPath⟩])
              | _ => none

def reversed : Matcher where
  slots := [.newPath, .path]
  matchAt := behindWord (Text.ofString "INTO ") fun rest =>
    (lowerWord? rest).bind fun newPath =>
      let fromWord := Text.ofString " FROM "
      (Text.after? (rest.drop newPath.length) fromWord).bind fun behind =>
        (lowerWord? behind).bind fun path =>
          match behind.drop path.length with
          | ';' :: _ =>
              let offset := newPath.length + fromWord.length
              some (offset + path.length + 1,
                [⟨.newPath, 0, newPath⟩, ⟨.path, offset, path⟩])
          | _ => none

end CommandFile.Matcher
