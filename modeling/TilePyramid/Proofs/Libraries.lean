import Mathlib
import TilePyramid.Config.Libraries
import TilePyramid.Text.Pattern
import TilePyramid.Toml.Text

/-!
# What is expected of libraries

Configurations are read with any libraries. What a theorem about reading needs of them is stated
here, for each of them apart and for inputs of a plain form only: that regular expressions are found
wherever they match (`FindsPatterns`), that a template without delimiters is left as it is
(`KeepsPlainText`), that sections of keys with values are read as tables (`ReadsSections`), and that
records are decoded field by field (`DecodesRecords`).
-/

namespace TilePyramid

/-! ## Regular expressions -/

/-- The pattern matches a text from its front to its end. -/
inductive Text.Pattern.Matches : Pattern → List Char → Prop where
  | nothing : Matches .nothing []
  | sign {c : Char} {h : isSign c = true} {rest : Pattern} {cs : List Char} :
      Matches rest cs → Matches (.sign c h rest) (c :: cs)
  | letters {rest : Pattern} {run cs : List Char} :
      run ≠ [] → (∀ c ∈ run, c.isAlphanum = true) → Matches rest cs →
      Matches (.letters rest) (run ++ cs)
  | group {inner rest : Pattern} {cs cs' : List Char} :
      Matches inner cs → Matches rest cs' → Matches (.group inner rest) (cs ++ cs')

/-- Patterns are compiled to tests that find them anywhere in a text. The limits of nesting and of
size do not reach patterns of less than 250 characters. -/
def FindsPatterns (compile : String → Except String (String → Bool)) : Prop :=
  ∀ p : Text.Pattern, p.chars.length < 250 →
    ∃ test, compile p.text = .ok test ∧
      ∀ text : String, test text = true ↔ ∃ part, p.Matches part ∧ part <:+: text.toList

/-! ## Templates -/

namespace Template

/-- What begins and ends a place, a statement and a comment. -/
def delimiters : List (List Char) :=
  [['\x7b', '\x7b'], ['\x7d', '\x7d'], ['\x7b', '%'], ['%', '\x7d'], ['\x7b', '#'], ['#', '\x7d']]

/-- The text has no delimiters. -/
def IsPlain (cs : List Char) : Prop := ∀ delimiter ∈ delimiters, ¬ delimiter <:+: cs

end Template

/-- A template without delimiters is filled in by its own text, whatever its name. -/
def KeepsPlainText
    (compile : (name text : String) →
      Except Template.Failure (Template.Context → Except Template.Failure String)) : Prop :=
  ∀ name text : String, Template.IsPlain text.toList →
    ∃ render, compile name text = .ok render ∧ ∀ context, render context = .ok text

/-! ## Documents -/

namespace Toml

/-- The characters are those of a word. -/
def IsWord (cs : List Char) : Prop := cs ≠ [] ∧ ∀ c ∈ cs, isWordChar c = true

/-- The characters of a text stand for themselves in double quotes. -/
def IsUnescaped (cs : List Char) : Prop :=
  ∀ c ∈ cs, ' ' ≤ c ∧ c ≠ '\x7f' ∧ c ≠ '"' ∧ c ≠ '\\'

/-- A value that is written in a plain way. -/
inductive Literal where
  | text (text : String)
  | number (n : Nat)

namespace Literal

/-- A text stands in quotes and a number is written in decimal digits. -/
def chars : Literal → List Char
  | text t => '"' :: (t.toList ++ ['"'])
  | number n => Nat.toDigits 10 n

/-- The value that is written. -/
def value : Literal → Value
  | text t => .string t
  | number n => .integer n

/-- Nothing in a text is escaped, and a number is within 64 bits with a sign. -/
def IsPlain : Literal → Prop
  | text t => IsUnescaped t.toList
  | number n => n < 2 ^ 63

end Literal

/-- The keys behind the first one, each with a dot before it. -/
def dotted (keys : List (List Char)) : List Char := keys.flatMap ('.' :: ·)

/-- A table with a header: the keys that lead to it, and its entries. -/
structure Section where
  key : String
  keys : List String
  entries : List (String × Literal)

namespace Section

/-- The line of an entry: its name and its value with blanks around the sign between them. -/
def entryChars (entry : String × Literal) : List Char :=
  entry.1.toList ++ ' ' :: '=' :: ' ' :: (entry.2.chars ++ ['\n'])

/-- The header behind an empty line, and a line for each entry. -/
def chars (s : Section) : List Char :=
  '\n' :: '[' :: (s.key.toList ++ (dotted (s.keys.map String.toList) ++
    ']' :: '\n' :: s.entries.flatMap entryChars))

/-- The keys and the names of the entries are words, no two entries have the same name, and their
values are written in a plain way. -/
structure IsPlain (s : Section) : Prop where
  key : IsWord s.key.toList
  keys : ∀ key ∈ s.keys, IsWord key.toList
  names : ∀ entry ∈ s.entries, IsWord entry.1.toList
  nodup : (s.entries.map Prod.fst).Nodup
  literals : ∀ entry ∈ s.entries, entry.2.IsPlain

/-- The table of the entries. -/
def table (s : Section) : Table :=
  Table.ofList (s.entries.map fun entry => (entry.1, entry.2.value))

end Section

/-- A table inside of tables with one name each. -/
def nest : List String → Table → Value
  | [], table => .table table
  | key :: keys, table => .table [(key, nest keys table)]

end Toml

/-- Plain sections whose first keys are different are read as the tables to which their keys
lead. -/
def ReadsSections (read : String → Except String Toml.Value) : Prop :=
  ∀ sections : List Toml.Section, (∀ s ∈ sections, s.IsPlain) →
    (sections.map Toml.Section.key).Nodup →
    read (String.ofList (sections.flatMap Toml.Section.chars)) =
      .ok (.table (Toml.Table.ofList (sections.map fun s => (s.key, Toml.nest s.keys s.table))))

/-! ## Values -/

/-- The record that is made of the values in a table. A field that is not there has its default or
what stands for a value that is left out. -/
inductive Fields.Reads (decode : {α : Type} → Kind α → Toml.Value → Except String α)
    (table : Toml.Table) : {α : Type} → Fields α → α → Prop where
  | make {α : Type} (a : α) : Reads decode table (.make a) a
  | found {α β : Type} {before : Fields (β → α)} {name : String} {kind : Kind β}
      {default? : Option β} {f : β → α} {value : Toml.Value} {b : β} :
      Reads decode table before f → table.find? name = some value → decode kind value = .ok b →
      Reads decode table (.field before name kind default?) (f b)
  | leftOut {α β : Type} {before : Fields (β → α)} {name : String} {kind : Kind β}
      {default? : Option β} {f : β → α} {b : β} :
      Reads decode table before f → table.find? name = none →
      default?.or kind.leftOut? = some b →
      Reads decode table (.field before name kind default?) (f b)

/-- Values are decoded as what kinds describe: texts and numbers of 32 bits as themselves, and a
table as the record that its values make. Values under other names do not matter. -/
structure DecodesRecords (decode : {α : Type} → Kind α → Toml.Value → Except String α) : Prop where
  text (text : String) : decode .text (.string text) = .ok text
  word {n : Nat} : n < 2 ^ 32 → decode .word (.integer n) = .ok n
  optional {α : Type} {kind : Kind α} {value : Toml.Value} {a : α} :
    decode kind value = .ok a → decode (.optional kind) value = .ok (some a)
  record {α : Type} (name : String) {fields : Fields α} {table : Toml.Table} {a : α} :
    fields.names.Nodup → (table.map Prod.fst).Nodup → fields.Reads decode table a →
    decode (.record name fields) (.table table) = .ok a

end TilePyramid
