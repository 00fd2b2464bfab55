/-!
# Values of a configuration document

A document in the TOML format is a table of named values, some of which are tables again. A `Table`
has its names in order, so tables with the same values are equal, however they were written.
-/

namespace TilePyramid.Toml

/-- A value of a document. -/
inductive Value where
  | string (text : String)
  | integer (value : Int)
  | float (value : Float)
  | boolean (value : Bool)
  /-- A date, a time or both, in their usual text. -/
  | date (text : String)
  | array (elements : List Value)
  | table (entries : List (String × Value))
deriving Inhabited

/-- The named values of a table, in the order of their names. -/
abbrev Table := List (String × Value)

namespace Table

/-- The value with the given name. -/
def find? (table : Table) (name : String) : Option Value := table.lookup name

/-- The first text comes before the second one in the order of their characters. -/
def precedes : List Char → List Char → Bool
  | _, [] => false
  | [], _ :: _ => true
  | c :: cs, d :: ds => c < d || (c = d && precedes cs ds)

/-- The table with a value under the given name, in the place of any other one. -/
def insert (name : String) (value : Value) : Table → Table
  | [] => [(name, value)]
  | (other, old) :: rest =>
      if precedes name.toList other.toList then (name, value) :: (other, old) :: rest
      else if name = other then (name, value) :: rest
      else (other, old) :: insert name value rest

/-- The table with the given names and values. Of several values with the same name it has the
first one. -/
def ofList : List (String × Value) → Table
  | [] => []
  | (name, value) :: rest => (ofList rest).insert name value

end Table

end TilePyramid.Toml
