/-!
# Kinds of values

A `Kind` describes what a value of a document is read as: a text, a number, something that may be
left out, or a record with named fields. A record is described by what makes it from its fields and
by the fields in their order.
-/

namespace TilePyramid

mutual

/-- What a value is read as. -/
inductive Kind : Type → Type 1 where
  | text : Kind String
  /-- A number of 32 bits. -/
  | word : Kind Nat
  /-- A value that may be left out. -/
  | optional {α : Type} (kind : Kind α) : Kind (Option α)
  /-- A record with the name that messages give it. -/
  | record {α : Type} (name : String) (fields : Fields α) : Kind α

/-- The fields of a record that is made from them. -/
inductive Fields : Type → Type 1 where
  | make {α : Type} (a : α) : Fields α
  /-- One field more, which may have a default. -/
  | field {α β : Type} (before : Fields (β → α)) (name : String) (kind : Kind β)
      (default? : Option β) : Fields α

end

/-- What stands for a value that is left out, if that may be. -/
def Kind.leftOut? : {α : Type} → Kind α → Option α
  | _, .text => none
  | _, .word => none
  | _, .optional _ => some none
  | _, .record _ _ => none

/-- The names of the fields in their order. -/
def Fields.names : {α : Type} → Fields α → List String
  | _, .make _ => []
  | _, .field before name _ _ => before.names ++ [name]

end TilePyramid
