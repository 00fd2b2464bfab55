/-!
# Strings and keys of a document

A string stands in single or double quotes, or in three of them when it may go over several
lines. Backslashes have a meaning in double quotes only. `Text.read?` reads a string and
`readKey?` a key, which is a word or a string on one line.
-/

namespace TilePyramid.Toml

/-- A reader takes characters from the front of a text, if they have the right form. -/
abbrev Reader (α : Type) := List Char → Option (α × List Char)

/-- The text with each pair of carriage return and newline replaced by a newline. -/
def foldNewlines : List Char → List Char
  | '\r' :: '\n' :: rest => '\n' :: foldNewlines rest
  | c :: rest => c :: foldNewlines rest
  | [] => []

/-- A character that separates words on a line. -/
def isBlank (c : Char) : Bool := c = ' ' || c = '\t'

/-- The text without the blanks at its front. -/
def skipBlanks (cs : List Char) : List Char := cs.dropWhile isBlank

/-- A character of a word: a letter or digit of ASCII, a hyphen or an underscore. -/
def isWordChar (c : Char) : Bool := c.isAlphanum || c = '-' || c = '_'

/-- A character that may stand in a string as it is. -/
def isTextChar (c : Char) : Bool := c = '\t' || (' ' ≤ c && c ≠ '\x7f')

/-- The value of a hexadecimal digit. -/
def hexDigit? (c : Char) : Option Nat :=
  if c.isDigit then some (c.toNat - '0'.toNat)
  else if 'a' ≤ c ∧ c ≤ 'f' then some (c.toNat - 'a'.toNat + 10)
  else if 'A' ≤ c ∧ c ≤ 'F' then some (c.toNat - 'A'.toNat + 10)
  else none

/-- The character with the given hexadecimal number. -/
def charOfHex? (digits : List Char) : Option Char := do
  let values ← digits.mapM hexDigit?
  let code := values.foldl (fun number digit => 16 * number + digit) 0
  if code.isValidChar then some (Char.ofNat code) else none

namespace Text

/-- The kinds of strings. -/
structure Style where
  quote : Char
  hasEscapes : Bool
  isMultiline : Bool
deriving DecidableEq, Repr

/-- The character that a letter behind a backslash stands for. -/
def escaped? : Char → Option Char
  | 'b' => some '\x08'
  | 't' => some '\t'
  | 'n' => some '\n'
  | 'f' => some '\x0c'
  | 'r' => some '\r'
  | '"' => some '"'
  | '\\' => some '\\'
  | _ => none

/-- The text behind a backslash at the end of a line: from the next character on that is no white
space. Blanks behind the backslash belong to the end of the line. -/
def continueLine? (cs : List Char) : Option (List Char) :=
  match skipBlanks cs with
  | '\n' :: rest => some (rest.dropWhile fun c => isBlank c || c = '\n')
  | _ => none

theorem continueLine_length {cs rest : List Char} (h : continueLine? cs = some rest) :
    rest.length ≤ cs.length := by
  unfold continueLine? at h
  split at h
  next tail hs =>
    cases h
    have inner := (List.dropWhile_sublist (fun c => isBlank c || c = '\n') (l := tail)).length_le
    have outer := (List.dropWhile_sublist isBlank (l := cs)).length_le
    simp only [skipBlanks] at hs
    rw [hs, List.length_cons] at outer
    omega
  · contradiction

/-- The number of quotes at the front of a text. -/
def quoteCount (style : Style) (cs : List Char) : Nat :=
  (cs.takeWhile (· = style.quote)).length

/-- The characters of a string up to its closing quotes, and the text behind them. Three quotes
close a string of several lines, and up to two more before them belong to it. -/
def readContent? (style : Style) : Reader (List Char)
  | [] => none
  | c :: rest =>
      if c = style.quote then
        if style.isMultiline then
          let more := quoteCount style rest
          if more < 2 then
            (readContent? style rest).map fun (text, behind) => (c :: text, behind)
          else
            some (List.replicate (min more 4 - 2) c, rest.drop (min more 4))
        else some ([], rest)
      else if c = '\\' ∧ style.hasEscapes then
        match rest with
        | [] => none
        | letter :: behind =>
            match escaped? letter with
            | some char =>
                (readContent? style behind).map fun (text, behind) => (char :: text, behind)
            | none =>
                if letter = 'u' ∨ letter = 'U' then
                  let count := if letter = 'u' then 4 else 8
                  if count ≤ behind.length then
                    match charOfHex? (behind.take count) with
                    | some char =>
                        (readContent? style (behind.drop count)).map fun (text, behind) =>
                          (char :: text, behind)
                    | none => none
                  else none
                else if style.isMultiline then
                  match h : continueLine? (letter :: behind) with
                  | some next =>
                      have := continueLine_length h
                      readContent? style next
                  | none => none
                else none
      else if isTextChar c ∨ (c = '\n' ∧ style.isMultiline) then
        (readContent? style rest).map fun (text, behind) => (c :: text, behind)
      else none
termination_by cs => cs.length
decreasing_by all_goals (simp only [List.length_cons, List.length_drop] at *; omega)

/-- The text without a newline at its front. -/
def dropNewline : List Char → List Char
  | '\n' :: rest => rest
  | cs => cs

/-- A string in the given quotes. -/
def readQuoted? (quote : Char) (hasEscapes : Bool) : Reader String := fun cs =>
  let content :=
    match cs with
    | a :: b :: c :: rest =>
        if a = quote ∧ b = quote ∧ c = quote then
          readContent? ⟨quote, hasEscapes, true⟩ (dropNewline rest)
        else if a = quote then readContent? ⟨quote, hasEscapes, false⟩ (b :: c :: rest)
        else none
    | a :: rest =>
        if a = quote then readContent? ⟨quote, hasEscapes, false⟩ rest else none
    | [] => none
  content.map fun (text, behind) => (String.ofList text, behind)

/-- A string. -/
def read? : Reader String
  | '"' :: rest => readQuoted? '"' true ('"' :: rest)
  | '\'' :: rest => readQuoted? '\'' false ('\'' :: rest)
  | _ => none

/-- The text begins with the three quotes of a string of several lines. -/
def isMultiline : List Char → Bool
  | '"' :: '"' :: '"' :: _ => true
  | '\'' :: '\'' :: '\'' :: _ => true
  | _ => false

end Text

/-- A key: a word, or a string on one line. -/
def readKey? : Reader String := fun cs =>
  match cs.takeWhile isWordChar with
  | [] => if Text.isMultiline cs then none else Text.read? cs
  | word => some (String.ofList word, cs.dropWhile isWordChar)

/-- The keys behind the first one of a dotted key. -/
def readMoreKeys? : (fuel : Nat) → Reader (List String)
  | 0, _ => none
  | fuel + 1, cs =>
      match skipBlanks cs with
      | '.' :: rest => do
          let (key, behind) ← readKey? (skipBlanks rest)
          let (keys, behind) ← readMoreKeys? fuel behind
          pure (key :: keys, behind)
      | behind => some ([], behind)

/-- Keys with dots between them, and the blanks around them. -/
def readDottedKey? : Reader (String × List String) := fun cs => do
  let (key, behind) ← readKey? (skipBlanks cs)
  let (keys, behind) ← readMoreKeys? (cs.length + 1) behind
  pure ((key, keys), behind)

end TilePyramid.Toml
