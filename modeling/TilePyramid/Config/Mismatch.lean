import TilePyramid.Binary64.Text
import TilePyramid.Text.Quoted
import TilePyramid.Toml.Value

/-!
# Values that do not fit

A document can be well formed and still not be what is asked for. A `Mismatch` says what is wrong
and under which keys.
-/

namespace TilePyramid

/-- What is wrong with a value. -/
inductive MismatchCause where
  /-- The value is of another kind. -/
  | kind (found : String) (expected : String)
  /-- The number is out of range. -/
  | range (value : Int) (expected : String)
  /-- An array has the wrong number of elements. -/
  | length (count : Nat) (expected : String)
  /-- A table lacks a key. -/
  | missing (key : String)
deriving DecidableEq, Repr

/-- What is wrong with a value, and the keys that lead to it. -/
structure Mismatch where
  cause : MismatchCause
  keys : List String
deriving DecidableEq, Repr

/-- The text of a cause. -/
def MismatchCause.text : MismatchCause → String
  | kind found expected => "invalid type: " ++ found ++ ", expected " ++ expected
  | range value expected =>
      "invalid value: integer `" ++ toString value ++ "`, expected " ++ expected
  | length count expected => "invalid length " ++ toString count ++ ", expected " ++ expected
  | missing key => "missing field `" ++ key ++ "`"

/-- The text of a mismatch. -/
def Mismatch.text (m : Mismatch) : String :=
  if m.keys.isEmpty then m.cause.text
  else m.cause.text ++ " for key `" ++ String.intercalate "." m.keys ++ "`"

/-- What a value is, in a message. -/
def Toml.Value.description : Toml.Value → String
  | string text => "string " ++ Text.quoted text
  | integer value => "integer `" ++ toString value ++ "`"
  | float value => "floating point `" ++ Binary64.text .pointed value.toBits ++ "`"
  | boolean value => "boolean `" ++ toString value ++ "`"
  | date text => "string " ++ Text.quoted text
  | array _ => "sequence"
  | table _ => "map"

end TilePyramid
