import Mathlib
import TilePyramid.Proofs.Names

/-!
# The texts that are decimal names

`Numeral text n` says that a text writes a number in decimal digits, perhaps behind a plus sign. A
text is read as a code exactly if it is the numeral of a word (`Code.ofDecimal?_eq_some_iff`), and a
code is written as its numeral without a plus sign and without leading zeros
(`Code.isPlain_decimal`). With decoding, this tells what every text names
(`Tile.decimalName_grammar`).
-/

namespace TilePyramid

/-- `Digits cs n` says that the characters `cs` are the decimal digits of `n`, with zeros before
them or not. There is at least one. -/
inductive Digits : List Char → Nat → Prop where
  | first (c : Char) : '0' ≤ c → c ≤ '9' → Digits [c] (c.toNat - '0'.toNat)
  | next (cs : List Char) (n : Nat) (c : Char) :
      Digits cs n → '0' ≤ c → c ≤ '9' → Digits (cs ++ [c]) (10 * n + (c.toNat - '0'.toNat))

/-- `Numeral text n` says that the text is the number `n` in decimal digits, with one plus sign
before them or none. -/
inductive Numeral : String → Nat → Prop where
  | unsigned (cs : List Char) (n : Nat) : Digits cs n → Numeral (String.ofList cs) n
  | signed (cs : List Char) (n : Nat) : Digits cs n → Numeral (String.ofList ('+' :: cs)) n

/-- The text is the number in digits only, of which the first one is not zero. -/
def IsPlain (text : String) (n : Nat) : Prop :=
  Digits text.toList n ∧ text.toList.head? ≠ some '0'

variable {cs : List Char} {n : Nat} {text name : String} {code : Code}

/-! ## Digits -/

theorem isDigit_iff {c : Char} : c.isDigit = true ↔ '0' ≤ c ∧ c ≤ '9' := by
  simp only [Char.isDigit, Bool.and_eq_true, decide_eq_true_iff]
  rfl

theorem digits_iff :
    Digits cs n ↔ cs ≠ [] ∧ (∀ c ∈ cs, c.isDigit = true) ∧ Nat.ofDigitChars 10 cs 0 = n := by
  constructor
  · intro h
    induction h with
    | first c hlow hhigh =>
        refine ⟨List.cons_ne_nil _ _, List.forall_mem_singleton.2 (isDigit_iff.2 ⟨hlow, hhigh⟩), ?_⟩
        rw [Nat.ofDigitChars_cons, Nat.ofDigitChars_nil, Nat.mul_zero, Nat.zero_add]
    | next cs n c _ hlow hhigh ih =>
        obtain ⟨-, hdigits, rfl⟩ := ih
        refine ⟨by simp, List.forall_mem_append.2 ⟨hdigits, ?_⟩, ?_⟩
        · exact List.forall_mem_singleton.2 (isDigit_iff.2 ⟨hlow, hhigh⟩)
        · rw [Nat.ofDigitChars_append, Nat.ofDigitChars_cons, Nat.ofDigitChars_nil]
  · rintro ⟨hne, hdigits, rfl⟩
    induction cs using List.reverseRecOn with
    | nil => exact absurd rfl hne
    | append_singleton cs c ih =>
        obtain ⟨hbefore, hlast⟩ := List.forall_mem_append.1 hdigits
        obtain ⟨hlow, hhigh⟩ := isDigit_iff.1 (hlast c List.mem_cons_self)
        rw [Nat.ofDigitChars_append, Nat.ofDigitChars_cons, Nat.ofDigitChars_nil]
        cases cs with
        | nil =>
            rw [Nat.ofDigitChars_nil, Nat.mul_zero, Nat.zero_add]
            exact .first c hlow hhigh
        | cons first rest => exact .next _ _ c (ih (List.cons_ne_nil _ _) hbefore) hlow hhigh

/-- The digits of a number that is not zero begin with another digit than zero. -/
theorem head?_toDigits_ne (hn : 0 < n) : (Nat.toDigits 10 n).head? ≠ some '0' := by
  induction n using Nat.strong_induction_on with
  | _ n ih =>
      rw [Nat.toDigits_eq_if (by decide)]
      split
      · rename_i hlt
        interval_cases n <;> decide
      · rename_i hge
        have hbefore := ih (n / 10) (by omega) (by omega)
        rwa [List.head?_append_of_ne_nil _ Nat.toDigits_ne_nil]

/-! ## Reading and writing numerals -/

namespace Code

theorem dropPlus_cases (cs : List Char) : cs = dropPlus cs ∨ cs = '+' :: dropPlus cs := by
  unfold dropPlus
  split
  · exact .inr rfl
  · exact .inl rfl

/-- A text is a numeral if its characters behind a plus sign are digits. -/
theorem numeral_iff : Numeral text n ↔ Digits (dropPlus text.toList) n := by
  constructor
  · intro h
    cases h with
    | unsigned cs n hcs =>
        rwa [String.toList_ofList, dropPlus_of_isDigit (digits_iff.1 hcs).2.1]
    | signed cs n hcs =>
        rw [String.toList_ofList]
        exact hcs
  · intro h
    rw [← String.ofList_toList (s := text)]
    rcases dropPlus_cases text.toList with hunsigned | hsigned
    · rw [hunsigned]
      exact .unsigned _ n h
    · rw [hsigned]
      exact .signed _ n h

/-- A text is the numeral of one number at most. -/
theorem numeral_unique {other : Nat} (h : Numeral text n) (hother : Numeral text other) :
    n = other := by
  rw [numeral_iff, digits_iff] at h hother
  exact h.2.2.symm.trans hother.2.2

/-- A text is read as a code exactly if it is the numeral of its word. -/
theorem ofDecimal?_eq_some_iff : ofDecimal? text = some code ↔ Numeral text code.word.toNat := by
  rw [numeral_iff, digits_iff, ofDecimal?, ← List.all_eq_true]
  have hword := code.word.toNat_lt
  constructor
  · intro h
    split at h
    · rename_i hread
      obtain ⟨hne, hdigits, hlt⟩ := hread
      obtain rfl := Option.some.inj h
      exact ⟨hne, hdigits, (UInt64.toNat_ofNat_of_lt' hlt).symm⟩
    · cases h
  · rintro ⟨hne, hdigits, hvalue⟩
    rw [hvalue, if_pos ⟨hne, hdigits, hword⟩, UInt64.ofNat_toNat]

theorem ofDecimal?_eq_none_iff :
    ofDecimal? text = none ↔ ¬ ∃ n, n < 2 ^ 64 ∧ Numeral text n := by
  rw [← not_iff_not, ← ne_eq, Option.ne_none_iff_exists', not_not]
  constructor
  · rintro ⟨code, hcode⟩
    exact ⟨code.word.toNat, code.word.toNat_lt, ofDecimal?_eq_some_iff.1 hcode⟩
  · rintro ⟨n, hlt, hn⟩
    refine ⟨⟨UInt64.ofNat n⟩, ofDecimal?_eq_some_iff.2 ?_⟩
    rwa [UInt64.toNat_ofNat_of_lt' hlt]

/-- A code that is not zero is written in digits without leading zeros. -/
theorem isPlain_decimal (h : 0 < code.word.toNat) : IsPlain code.decimal code.word.toNat := by
  have htext : code.decimal.toList = Nat.toDigits 10 code.word.toNat := String.toList_ofList
  rw [IsPlain, htext, digits_iff]
  refine ⟨⟨Nat.toDigits_ne_nil, fun c => ?_, Nat.ofDigitChars_ten_toDigits⟩, head?_toDigits_ne h⟩
  exact Nat.isDigit_of_mem_toDigits (by decide) (Nat.le_refl 10)

end Code

/-! ## Names of tiles -/

namespace Tile

theorem ofDecimalName_of_numeral (hlt : n < 2 ^ 64) (h : Numeral name n) :
    ofDecimalName name = ofCode ⟨UInt64.ofNat n⟩ := by
  have hread : Code.ofDecimal? name = some ⟨UInt64.ofNat n⟩ := by
    rw [Code.ofDecimal?_eq_some_iff, UInt64.toNat_ofNat_of_lt' hlt]
    exact h
  rw [ofDecimalName, hread]

theorem ofDecimalName_of_not_numeral (h : ¬ ∃ n, n < 2 ^ 64 ∧ Numeral name n) :
    ofDecimalName name = invalid := by
  rw [ofDecimalName, Code.ofDecimal?_eq_none_iff.2 h]

theorem isValid_ofDecimalName_iff :
    (ofDecimalName name).IsValid ↔ ∃ n, n < 2 ^ 63 ∧ Numeral name n := by
  by_cases hword : ∃ n, n < 2 ^ 64 ∧ Numeral name n
  · obtain ⟨n, hlt, hn⟩ := hword
    rw [ofDecimalName_of_numeral hlt hn, isValid_ofCode_iff, UInt64.toNat_ofNat_of_lt' hlt]
    refine ⟨fun hfree => ⟨n, hfree, hn⟩, ?_⟩
    rintro ⟨other, hfree, hother⟩
    rwa [Code.numeral_unique hn hother]
  · rw [ofDecimalName_of_not_numeral hword]
    refine ⟨fun hvalid => absurd hvalid (by decide), ?_⟩
    rintro ⟨n, hfree, hn⟩
    exact absurd ⟨n, hfree.trans (by decide), hn⟩ hword

theorem decimalName_injOn : Set.InjOn decimalName { t | t.IsValid } := by
  intro s hs t ht h
  rw [← ofDecimalName_decimalName hs, h, ofDecimalName_decimalName ht]

/-- Decimal names. A text that is the numeral of a word, perhaps with a plus sign and with leading
zeros, is read as the tile with this code, and every other text as the invalid tile. So a text names
a valid tile exactly if it is the numeral of a number that leaves the highest bit of a word free. A
valid tile is read back from its name, which is its code in plain digits, and no two valid tiles
have the same name. -/
theorem decimalName_grammar :
    (∀ (name : String) (n : Nat), n < 2 ^ 64 → Numeral name n →
      ofDecimalName name = ofCode ⟨UInt64.ofNat n⟩) ∧
    (∀ name : String, (¬ ∃ n, n < 2 ^ 64 ∧ Numeral name n) → ofDecimalName name = invalid) ∧
    (∀ name : String, (ofDecimalName name).IsValid ↔ ∃ n, n < 2 ^ 63 ∧ Numeral name n) ∧
    (∀ t : Tile, t.IsValid →
      ofDecimalName t.decimalName = t ∧ IsPlain t.decimalName t.code.word.toNat) ∧
    Set.InjOn decimalName { t | t.IsValid } := by
  refine ⟨fun name n => ofDecimalName_of_numeral, fun name => ofDecimalName_of_not_numeral,
    fun name => isValid_ofDecimalName_iff, fun t ht => ⟨ofDecimalName_decimalName ht, ?_⟩,
    decimalName_injOn⟩
  exact Code.isPlain_decimal (one_le_code ht)

/-- The largest code of a valid tile is read behind a plus sign and a zero. Two plus signs are no
part of a numeral, and a number of one word more than fits is no code. A tile of the deepest level
is read back from its name. -/
theorem decimalName_grammar_largest :
    let largest := "+09223372036854775807"
    Numeral largest 9223372036854775807 ∧ 9223372036854775807 < 2 ^ 64 ∧
      ofDecimalName largest = ofCode ⟨9223372036854775807⟩ ∧ (ofDecimalName largest).IsValid ∧
      ofDecimalName "++1" = invalid ∧ ofDecimalName "18446744073709551616" = invalid ∧
      (⟨0x7FFFFFFF, 5, 31⟩ : Tile).IsValid ∧
      ofDecimalName (⟨0x7FFFFFFF, 5, 31⟩ : Tile).decimalName = ⟨0x7FFFFFFF, 5, 31⟩ := by
  intro largest
  obtain ⟨hcode, hother, hvalid, hback, -⟩ := decimalName_grammar
  have hread : Code.ofDecimal? largest = some ⟨9223372036854775807⟩ := by decide
  have hlargest : Numeral largest 9223372036854775807 := Code.ofDecimal?_eq_some_iff.1 hread
  have hdeepest : (⟨0x7FFFFFFF, 5, 31⟩ : Tile).IsValid := by decide
  exact ⟨hlargest, by decide, hcode largest _ (by decide) hlargest,
    (hvalid largest).2 ⟨_, by decide, hlargest⟩,
    hother _ (Code.ofDecimal?_eq_none_iff.1 (by decide)),
    hother _ (Code.ofDecimal?_eq_none_iff.1 (by decide)), hdeepest, (hback _ hdeepest).1⟩

end Tile

end TilePyramid
