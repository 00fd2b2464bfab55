/-!
# Patterns

A small part of the language of regular expressions: signs behind a backslash, runs of letters and
digits, and groups. `Pattern.compile` makes the test from a pattern's text that finds it anywhere in
a text. Other regular expressions are refused.
-/

namespace TilePyramid.Text

/-- A sign with a meaning of its own in a pattern, where it stands for itself behind a backslash
only. -/
def isSign (c : Char) : Bool := "\\.+*?()|[]\x7b\x7d^$".toList.contains c

/-- A pattern for texts: the empty one, or a part with the pattern for the rest. -/
inductive Pattern where
  | nothing
  /-- A sign that stands for itself. -/
  | sign (c : Char) (isSign : isSign c = true) (rest : Pattern)
  /-- One or more letters and digits of ASCII. -/
  | letters (rest : Pattern)
  | group (inner rest : Pattern)

namespace Pattern

/-- The class of letters and digits with the mark for one or more of them. -/
def lettersText : List Char := ['[', '[', ':', 'a', 'l', 'n', 'u', 'm', ':', ']', ']', '+']

/-- The pattern as it is written. -/
def chars : Pattern → List Char
  | nothing => []
  | sign c _ rest => '\\' :: c :: rest.chars
  | letters rest => lettersText ++ rest.chars
  | group inner rest => '(' :: (inner.chars ++ ')' :: rest.chars)

/-- The text of a pattern. -/
def text (p : Pattern) : String := String.ofList p.chars

/-- A pattern at the front of a text, up to its end or to a closing parenthesis. -/
def read? : (fuel : Nat) → List Char → Option (Pattern × List Char)
  | 0, _ => none
  | fuel + 1, cs =>
      match cs with
      | [] => some (nothing, [])
      | ')' :: rest => some (nothing, ')' :: rest)
      | '\\' :: c :: rest =>
          if h : isSign c = true then
            (read? fuel rest).map fun (p, behind) => (sign c h p, behind)
          else none
      | '(' :: rest => do
          let (inner, behind) ← read? fuel rest
          match behind with
          | ')' :: rest => (read? fuel rest).map fun (p, behind) => (group inner p, behind)
          | _ => none
      | cs => do
          let rest ← lettersText.isPrefixOf? cs
          (read? fuel rest).map fun (p, behind) => (letters p, behind)

/-- What can stand behind one or more letters and digits at the front of a text. -/
def behindLetters : List Char → List (List Char)
  | [] => []
  | c :: rest => if c.isAlphanum then rest :: behindLetters rest else []

/-- What can stand behind the pattern at the front of a text. -/
def behind : Pattern → List Char → List (List Char)
  | nothing, cs => [cs]
  | sign c _ rest, cs =>
      match cs with
      | d :: cs => if d = c then rest.behind cs else []
      | [] => []
  | letters rest, cs => (behindLetters cs).flatMap rest.behind
  | group inner rest, cs => (inner.behind cs).flatMap rest.behind

/-- The pattern is found somewhere in a text. -/
def finds (p : Pattern) : List Char → Bool
  | [] => !(p.behind []).isEmpty
  | c :: rest => !(p.behind (c :: rest)).isEmpty || p.finds rest

/-- The test for the pattern with the given text, or why there is none. -/
def compile (text : String) : Except String (String → Bool) :=
  match read? (text.length + 1) text.toList with
  | some (p, []) => .ok fun searched => p.finds searched.toList
  | _ => .error ("unknown pattern " ++ text)

end Pattern

end TilePyramid.Text
