import TilePyramid.Config.Libraries
import TilePyramid.Text.WhiteSpace

/-!
# Templates

A small part of the language of templates. A place for a value stands between double braces: the
name of an environment and behind a dot that of a value. Comments stand between a brace with a
number sign and its counterpart, and leave nothing behind. Both are tags. A hyphen inside an end of
a tag takes away the white space outside of it. Templates with anything else are refused.
-/

namespace TilePyramid.Template

/-- What stands between two texts of a template. -/
structure Tag where
  /-- The names that lead to the value of a place. A comment has none. -/
  path? : Option (List String)
  /-- The white space before the tag is left out. -/
  trimsBefore : Bool
  /-- The white space behind the tag is left out. -/
  trimsBehind : Bool
deriving DecidableEq, Repr

/-- The parts of a template: texts with a tag between each two of them. -/
inductive Parts where
  | text (cs : List Char)
  | tag (before : List Char) (tag : Tag) (behind : Parts)
deriving DecidableEq, Repr

/-- The parts with one character more at the front. -/
def Parts.cons (c : Char) : Parts → Parts
  | text cs => text (c :: cs)
  | tag before t behind => tag (c :: before) t behind

/-- A character that separates words in braces. -/
def isSpace (c : Char) : Bool := c = ' ' || c = '\t' || c = '\r' || c = '\n'

/-- A character of a name. -/
def isNameChar (c : Char) : Bool := c.isAlphanum || c = '_'

/-- The names behind the first one of a path. -/
def readMoreNames? : (fuel : Nat) → List Char → Option (List String × List Char)
  | 0, _ => none
  | fuel + 1, cs =>
      match cs with
      | '.' :: rest =>
          match rest.takeWhile isNameChar with
          | [] => none
          | name => do
              let (names, behind) ← readMoreNames? fuel (rest.dropWhile isNameChar)
              pure (String.ofList name :: names, behind)
      | _ => some ([], cs)

/-- A path of names with dots between them. The first name does not begin with a digit. -/
def readPath? (cs : List Char) : Option (List String × List Char) :=
  match cs.takeWhile isNameChar with
  | [] => none
  | c :: name =>
      if c.isDigit then none
      else do
        let (names, behind) ← readMoreNames? (cs.length + 1) (cs.dropWhile isNameChar)
        pure (String.ofList (c :: name) :: names, behind)

/-- A hyphen at the front of a text, and the text behind it. -/
def readHyphen : List Char → Bool × List Char
  | '-' :: rest => (true, rest)
  | cs => (false, cs)

/-- A place behind two opening braces, up to the two closing ones. -/
def readPlace? (cs : List Char) : Option (Tag × List Char) := do
  let (trimsBefore, cs) := readHyphen cs
  let (path, behind) ← readPath? (cs.dropWhile isSpace)
  let (trimsBehind, behind) := readHyphen (behind.dropWhile isSpace)
  match behind with
  | '\x7d' :: '\x7d' :: rest => pure (⟨some path, trimsBefore, trimsBehind⟩, rest)
  | _ => none

/-- The end of a comment at the front of a text: whether it has a hyphen, and the text behind
it. -/
def readCommentEnd? : List Char → Option (Bool × List Char)
  | '-' :: '#' :: '\x7d' :: rest => some (true, rest)
  | '#' :: '\x7d' :: rest => some (false, rest)
  | _ => none

/-- The first end of a comment in a text. -/
def findCommentEnd? : List Char → Option (Bool × List Char)
  | [] => none
  | c :: rest =>
      match readCommentEnd? (c :: rest) with
      | some found => some found
      | none => findCommentEnd? rest

/-- A comment behind its opening brace and number sign. At least one character stands in it. -/
def readComment? (cs : List Char) : Option (Tag × List Char) := do
  let (trimsBefore, cs) := readHyphen cs
  if (readCommentEnd? cs).isSome then none
  else
    let (trimsBehind, rest) ← findCommentEnd? cs
    pure (⟨none, trimsBefore, trimsBehind⟩, rest)

/-- The parts of a template. A place or a comment without its end is refused, and so is a brace
with a percent sign. -/
def readParts? : (fuel : Nat) → List Char → Option Parts
  | 0, _ => none
  | fuel + 1, cs =>
      match cs with
      | [] => some (.text [])
      | '\x7b' :: '\x7b' :: rest => do
          let (tag, behind) ← readPlace? rest
          let parts ← readParts? fuel behind
          pure (.tag [] tag parts)
      | '\x7b' :: '#' :: rest => do
          let (tag, behind) ← readComment? rest
          let parts ← readParts? fuel behind
          pure (.tag [] tag parts)
      | '\x7b' :: '%' :: _ => none
      | c :: rest => (readParts? fuel rest).map (.cons c)

/-- The text of the value at the end of a path. -/
def find? (context : Context) : List String → Option String
  | [env] => (context.lookup env).map fun _ => "[object]"
  | [env, name] => do
      let values ← context.lookup env
      values.lookup name
  | _ => none

/-- A character as it is written in a marked up text. -/
def markupChar (c : Char) : List Char :=
  match c with
  | '&' => "&amp;".toList
  | '<' => "&lt;".toList
  | '>' => "&gt;".toList
  | '"' => "&quot;".toList
  | '\'' => "&#x27;".toList
  | '/' => "&#x2F;".toList
  | _ => [c]

/-- A text as it is written in a marked up text. -/
def markup (cs : List Char) : List Char := cs.flatMap markupChar

/-- Values are put into a file with this name as into a marked up text. -/
def isMarkupFile (path : String) : Bool :=
  path.endsWith ".html" || path.endsWith ".htm" || path.endsWith ".xml"

/-- The text in the place of a tag. A place without a value has none. -/
def Tag.text? (context : Context) (escape : Bool) (tag : Tag) : Option (List Char) :=
  match tag.path? with
  | none => some []
  | some path =>
      (find? context path).map fun value => if escape then markup value.toList else value.toList

/-- The text with the texts of all tags in their places. The white space at its front is left out
where `trims` says so. -/
def Parts.fill? (context : Context) (escape : Bool) (trims : Bool) : Parts → Option (List Char)
  | text cs => some (if trims then Text.trimFront cs else cs)
  | tag before t behind => do
      let before := if trims then Text.trimFront before else before
      let before := if t.trimsBefore then Text.trimBack before else before
      let value ← t.text? context escape
      let rest ← behind.fill? context escape t.trimsBehind
      pure (before ++ value ++ rest)

/-- The template with the given name and text, as a function that fills it in. -/
def compile (name text : String) : Except Failure (Context → Except Failure String) :=
  let cs := text.toList
  match readParts? (cs.length + 1) cs with
  | none => .error ⟨"Failed to parse '" ++ name ++ "'", none⟩
  | some parts =>
      .ok fun context =>
        match parts.fill? context (isMarkupFile name) false with
        | none => .error ⟨"Failed to render '" ++ name ++ "'", none⟩
        | some filled => .ok (String.ofList filled)

end TilePyramid.Template
