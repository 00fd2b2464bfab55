import TilePyramid.Toml.Date
import TilePyramid.Toml.Number
import TilePyramid.Toml.Table

/-!
# Reading documents

A document is a list of lines: a header opens a table, and a key with a value adds to the table
that was opened last. `parse?` reads a whole document as the table of its values.
-/

namespace TilePyramid.Toml

/-- The text behind a comment, which ends before the next control character. -/
def skipComment (cs : List Char) : List Char :=
  cs.dropWhile fun c => c = '\t' || ' ' ≤ c

/-- The text without blanks, newlines and comments at its front. -/
def skipSpace : (fuel : Nat) → List Char → List Char
  | 0, cs => cs
  | fuel + 1, cs =>
      match skipBlanks cs with
      | '\n' :: rest => skipSpace fuel rest
      | '#' :: rest => skipSpace fuel (skipComment rest)
      | rest => rest

/-- A word begins a date and not a number. -/
def beginsDate (word behind : List Char) : Bool :=
  word.contains 'T' || word.contains 't' ||
    ((word.drop 1).contains '-' &&
      !(word.zip (word.drop 1)).any fun pair => (pair.1 = 'e' || pair.1 = 'E') && pair.2 = '-') ||
    behind.head? = some ':'

/-- A number, a date or a boolean. -/
def readPlain? : Reader Item := fun cs =>
  match String.ofList (word cs) with
  | "true" => some (.boolean true, behindWord cs)
  | "false" => some (.boolean false, behindWord cs)
  | text =>
      match cs with
      | '+' :: _ => Number.read? cs
      | c :: _ =>
          if text = "inf" ∨ text = "nan" ∨ c = '-' ∨ c.isDigit then
            if beginsDate (word cs) (behindWord cs) then
              (Date.read? cs).map fun (date, rest) => (.date date, rest)
            else Number.read? cs
          else none
      | [] => none

mutual

/-- A value. -/
def readValue? : (fuel : Nat) → Reader Item
  | 0, _ => none
  | fuel + 1, cs =>
      match cs with
      | '[' :: rest =>
          (readElements? fuel rest).map fun (elements, rest) => (.array elements, rest)
      | '{' :: rest =>
          match skipBlanks rest with
          | '}' :: rest => some (.table .inline [], rest)
          | rest =>
              (readPairs? fuel [] rest).map fun (entries, rest) => (.table .inline entries, rest)
      | '"' :: _ => (Text.read? cs).map fun (text, rest) => (.string text, rest)
      | '\'' :: _ => (Text.read? cs).map fun (text, rest) => (.string text, rest)
      | _ => readPlain? cs

/-- The values of an array up to its closing bracket. A comma stands between two of them and may
stand behind the last. -/
def readElements? : (fuel : Nat) → Reader (List Item)
  | 0, _ => none
  | fuel + 1, cs =>
      match skipSpace (cs.length + 1) cs with
      | ']' :: rest => some ([], rest)
      | cs => do
          let (value, rest) ← readValue? fuel cs
          match skipSpace (rest.length + 1) rest with
          | ',' :: rest => do
              let (values, rest) ← readElements? fuel rest
              pure (value :: values, rest)
          | ']' :: rest => pure ([value], rest)
          | _ => none

/-- The keys and values of a table on one line up to its closing brace, added to those before. A
comma stands between two of them. -/
def readPairs? : (fuel : Nat) → Entries → Reader Entries
  | 0, _, _ => none
  | fuel + 1, entries, cs => do
      let ((key, keys), rest) ← readDottedKey? cs
      match rest with
      | '=' :: rest => do
          let (value, rest) ← readValue? fuel (skipBlanks rest)
          let entries ← entries.insert? key keys value
          match skipBlanks rest with
          | ',' :: rest => readPairs? fuel entries rest
          | '}' :: rest => pure (entries, rest)
          | _ => none
      | _ => none

end

/-- A part of a document. -/
inductive Line where
  /-- The header of a table. -/
  | table (key : String) (keys : List String)
  /-- The header of one more of the tables that share it. -/
  | element (key : String) (keys : List String)
  /-- A key with its value. -/
  | pair (key : String) (keys : List String) (value : Item)

/-- The text behind the end of a line, before which blanks and a comment may stand. -/
def endLine? (cs : List Char) : Option (List Char) :=
  match skipBlanks cs with
  | [] => some []
  | '\n' :: rest => some rest
  | '#' :: rest => some (skipComment rest)
  | _ => none

/-- A header or a key with its value. -/
def readLine? : Reader Line := fun cs =>
  match cs with
  | '[' :: '[' :: rest => do
      let ((key, keys), rest) ← readDottedKey? rest
      match rest with
      | ']' :: ']' :: rest => do
          let rest ← endLine? rest
          pure (.element key keys, rest)
      | _ => none
  | '[' :: rest => do
      let ((key, keys), rest) ← readDottedKey? rest
      match rest with
      | ']' :: rest => do
          let rest ← endLine? rest
          pure (.table key keys, rest)
      | _ => none
  | _ => do
      let ((key, keys), rest) ← readDottedKey? cs
      match rest with
      | '=' :: rest => do
          let rest := skipBlanks rest
          let (value, rest) ← readValue? (rest.length + 1) rest
          let rest ← endLine? rest
          pure (.pair key keys value, rest)
      | _ => none

/-- The lines of a document. -/
def readLines? : (fuel : Nat) → List Char → Option (List Line)
  | 0, _ => none
  | fuel + 1, cs =>
      match skipSpace (cs.length + 1) cs with
      | [] => some []
      | cs => do
          let (line, rest) ← readLine? cs
          let lines ← readLines? fuel rest
          pure (line :: lines)

/-- A document under construction: the values so far and the path to the table opened last. -/
structure Draft where
  entries : Entries
  opened : Option (String × List String)

/-- The document with one line more. -/
def Draft.add? (draft : Draft) : Line → Option Draft
  | .table key keys => do
      let entries ← draft.entries.reach? Entries.openTable? key keys
      pure ⟨entries, some (key, keys)⟩
  | .element key keys => do
      let entries ← draft.entries.reach? Entries.openElement? key keys
      pure ⟨entries, some (key, keys)⟩
  | .pair key keys value => do
      let entries ←
        match draft.opened with
        | none => draft.entries.insert? key keys value
        | some (table, tables) =>
            draft.entries.reach? (Entries.insertInto? (key, keys) value) table tables
      pure { draft with entries }

/-- The text without a byte order mark at its front. -/
def dropMark : List Char → List Char
  | '\uFEFF' :: rest => rest
  | cs => cs

/-- The table of the values of a document. -/
def parse? (text : String) : Option Entries := do
  let cs := foldNewlines (dropMark text.toList)
  let lines ← readLines? (cs.length + 1) cs
  let draft ← lines.foldlM Draft.add? ⟨[], none⟩
  pure draft.entries

end TilePyramid.Toml
