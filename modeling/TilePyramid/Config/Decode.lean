import TilePyramid.Config.Kind
import TilePyramid.Config.Mismatch

/-!
# Reading values

`Kind.fit` reads a value of a document as what a kind describes. Keys that are not asked for do not
matter. Of several mismatches the first one counts, with the keys of a table in their order and
missing keys behind all others. Where a record is asked for, an array gives the values of its fields
in their own order.
-/

namespace TilePyramid

/-- What is read, or why a value does not fit. -/
abbrev Fit (α : Type) := Except Mismatch α

namespace Fit

/-- What is found under a key. -/
def under {α : Type} (key : String) : Fit α → Fit α
  | .ok a => .ok a
  | .error mismatch => .error { mismatch with keys := key :: mismatch.keys }

/-- A value of another kind than expected. -/
def wrongKind {α : Type} (value : Toml.Value) (expected : String) : Fit α :=
  .error ⟨.kind value.description expected, []⟩

/-- A text. -/
def text : Toml.Value → Fit String
  | .string text => pure text
  | .date text => pure text
  | value => wrongKind value "a string"

/-- A number of 32 bits. -/
def word : Toml.Value → Fit Nat
  | .integer value =>
      if 0 ≤ value ∧ value < 0x100000000 then pure value.toNat
      else .error ⟨.range value "u32", []⟩
  | value => wrongKind value "u32"

/-- The value of a field that is not in a table. -/
def missing {α : Type} (name : String) : Option α → Fit α
  | some a => pure a
  | none => .error ⟨.missing name, []⟩

/-- The value of a field for which an array has no element. -/
def lacking {α : Type} (index : Nat) (expected : String) : Option α → Fit α
  | some a => pure a
  | none => .error ⟨.length index expected, []⟩

/-- An array whose elements are all used up. -/
def exhausted (count : Nat) : List Toml.Value → Fit Unit
  | [] => pure ()
  | _ :: _ => .error ⟨.length count "fewer elements in array", []⟩

end Fit

/-- A record with so many fields, in a message. -/
def recordText (name : String) (count : Nat) : String :=
  name ++ " with " ++ toString count ++ if count = 1 then " element" else " elements"

mutual

/-- A value as what the kind describes. -/
def Kind.fit : {α : Type} → Kind α → Toml.Value → Fit α
  | _, .text, value => Fit.text value
  | _, .word, value => Fit.word value
  | _, .optional kind, value => some <$> kind.fit value
  | _, .record name fields, value =>
      match value with
      | .table table => do
          table.forM fun entry => fields.check entry.1 entry.2
          fields.ofTable table
      | .array elements => do
          let (a, rest) ← fields.ofElements (recordText name fields.names.length) elements
          Fit.exhausted elements.length rest
          pure a
      | _ => Fit.wrongKind value name

/-- The value under a key fits the field of that name, if there is one. -/
def Fields.check : {α : Type} → Fields α → (key : String) → Toml.Value → Fit Unit
  | _, .make _, _, _ => pure ()
  | _, .field before name kind _, key, value => do
      before.check key value
      if name = key then discard (Fit.under name (kind.fit value))

/-- The record with the values of a table. -/
def Fields.ofTable : {α : Type} → Fields α → Toml.Table → Fit α
  | _, .make a, _ => pure a
  | _, .field before name kind default?, table => do
      let f ← before.ofTable table
      match table.find? name with
      | some value => f <$> Fit.under name (kind.fit value)
      | none => f <$> Fit.missing name (default?.or kind.leftOut?)

/-- The record with the elements of an array, and the elements that are left. -/
def Fields.ofElements : {α : Type} → Fields α → (expected : String) → List Toml.Value →
    Fit (α × List Toml.Value)
  | _, .make a, _, elements => pure (a, elements)
  | _, .field before _ kind default?, expected, elements => do
      let (f, elements) ← before.ofElements expected elements
      match elements with
      | value :: rest => (f ·, rest) <$> kind.fit value
      | [] => (f ·, []) <$> Fit.lacking before.names.length expected default?

end

end TilePyramid
