import TilePyramid.Toml.Item

/-!
# Building tables

The parts of a document add values and tables to the tables that are there already. Nothing is
ever replaced: a name is given once. A table may be named in the header of another one before it
gets its own header. A table made by a dotted key takes more dotted keys of the same part of the
document, but no header, and a table written as a value is complete. Names in a header that lead
to tables sharing a header in double brackets go on in the last of them.
-/

namespace TilePyramid.Toml.Entries

/-- Gives a value to a dotted key. -/
def insert? (key : String) (keys : List String) (value : Item) (entries : Entries) :
    Option Entries :=
  match keys with
  | [] =>
      match entries.find? key with
      | none => some (entries ++ [(key, value)])
      | some _ => none
  | next :: rest =>
      match entries.find? key with
      | none => do
          let inner ← insert? next rest value []
          pure (entries ++ [(key, .table .dotted inner)])
      | some (.table .dotted inner) => do
          let inner ← insert? next rest value inner
          pure (entries.put key (.table .dotted inner))
      | some _ => none

/-- Changes the table at the end of a path, where the tables on the way are made if they are
missing. The change sees the table that holds the end, and its name there. -/
def reach? (change : String → Entries → Option Entries) (key : String) (keys : List String)
    (entries : Entries) : Option Entries :=
  match keys with
  | [] => change key entries
  | next :: rest =>
      match entries.find? key with
      | none => do
          let inner ← reach? change next rest []
          pure (entries ++ [(key, .table .path inner)])
      | some (.table origin inner) =>
          match origin with
          | .path | .header => do
              let inner ← reach? change next rest inner
              pure (entries.put key (.table origin inner))
          | .dotted | .inline => none
      | some (.tables elements) => do
          let last ← elements.getLast?
          let inner ← reach? change next rest last
          pure (entries.put key (.tables (elements.dropLast ++ [inner])))
      | some _ => none

/-- Makes a table with a header of its own. -/
def openTable? (key : String) (entries : Entries) : Option Entries :=
  match entries.find? key with
  | none => some (entries ++ [(key, .table .header [])])
  | some (.table .path inner) => some (entries.put key (.table .header inner))
  | some _ => none

/-- Makes one more table of those that share a header. -/
def openElement? (key : String) (entries : Entries) : Option Entries :=
  match entries.find? key with
  | none => some (entries ++ [(key, .tables [[]])])
  | some (.tables elements) => some (entries.put key (.tables (elements ++ [[]])))
  | some _ => none

/-- Gives a value to a dotted key of the table with the given name. -/
def insertInto? (keys : String × List String) (value : Item) (key : String)
    (entries : Entries) : Option Entries :=
  match entries.find? key with
  | some (.table origin inner) => do
      let inner ← insert? keys.1 keys.2 value inner
      pure (entries.put key (.table origin inner))
  | some (.tables elements) => do
      let last ← elements.getLast?
      let inner ← insert? keys.1 keys.2 value last
      pure (entries.put key (.tables (elements.dropLast ++ [inner])))
  | _ => none

end TilePyramid.Toml.Entries
