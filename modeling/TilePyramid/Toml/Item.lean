import TilePyramid.Toml.Value

/-!
# Values of a document that is being read

While a document is read, a table remembers how it came about, because that decides who may add to
it, and tables that share a header are kept apart from other arrays. `Item.value` forgets both.
-/

namespace TilePyramid.Toml

/-- How a table came about. -/
inductive Origin where
  /-- Its name stands before the name of another table in a header. -/
  | path
  /-- It has a header of its own. -/
  | header
  /-- Its name stands before a dot in a key. -/
  | dotted
  /-- It is written as a value. -/
  | inline
deriving DecidableEq, Repr

/-- A value of a document that is being read. -/
inductive Item where
  | string (text : String)
  | integer (value : Int)
  | float (value : Float)
  | boolean (value : Bool)
  /-- A date, a time or both, in their usual text. -/
  | date (text : String)
  | array (elements : List Item)
  | table (origin : Origin) (entries : List (String × Item))
  /-- The tables that share a header in double brackets. -/
  | tables (elements : List (List (String × Item)))
deriving Inhabited

/-- The named values of a table, in the order in which they were written. -/
abbrev Entries := List (String × Item)

namespace Entries

/-- The value with the given name. -/
def find? (entries : Entries) (name : String) : Option Item := entries.lookup name

/-- The table with the value of a name put in place of the old one, or added at the end. -/
def put (name : String) (value : Item) : Entries → Entries
  | [] => [(name, value)]
  | (other, old) :: rest =>
      if other = name then (name, value) :: rest else (other, old) :: put name value rest

end Entries

mutual

/-- The value that is left of an item when the document has been read. -/
def Item.value : Item → Value
  | .string text => .string text
  | .integer value => .integer value
  | .float value => .float value
  | .boolean value => .boolean value
  | .date text => .date text
  | .array elements => .array (valuesOf elements)
  | .table _ entries => .table (tableOf entries)
  | .tables elements => .array (tablesOf elements)

/-- The values of the elements of an array. -/
def valuesOf : List Item → List Value
  | [] => []
  | item :: rest => item.value :: valuesOf rest

/-- The table of the values of entries. -/
def tableOf : List (String × Item) → Table
  | [] => []
  | (name, item) :: rest => (tableOf rest).insert name item.value

/-- The tables that share a header. -/
def tablesOf : List (List (String × Item)) → List Value
  | [] => []
  | entries :: rest => .table (tableOf entries) :: tablesOf rest

end

end TilePyramid.Toml
