import Mathlib
import TilePyramid.Config.Readers
import TilePyramid.Proofs.Documents
import TilePyramid.Proofs.Patterns

/-!
# What the readers of this library do

The readers of this library do what is expected of libraries. For regular expressions and documents
this is shown apart; here it is shown for templates, where a text without delimiters has one part
(`Template.readParts?_plain`), and for values, where the table of a record is read if the record is
made of its values (`Fields.ofTable_reads`).
-/

namespace TilePyramid

/-! ## Templates -/

namespace Template

variable {c : Char} {cs rest : List Char}

theorem IsPlain.tail (h : IsPlain (c :: cs)) : IsPlain cs :=
  fun delimiter hdelimiter hin => h delimiter hdelimiter (List.infix_cons hin)

/-- A plain text does not begin with a delimiter. -/
theorem IsPlain.ne_cons {a b : Char} (h : IsPlain cs) (hab : [a, b] ∈ delimiters) :
    cs ≠ a :: b :: rest := by
  intro heq
  exact h _ hab (heq ▸ (List.prefix_append [a, b] rest).isInfix)

/-- A text without delimiters has one part. -/
theorem readParts?_plain (h : IsPlain cs) {fuel : Nat} (hfuel : cs.length < fuel) :
    readParts? fuel cs = some (.text cs) := by
  induction cs generalizing fuel with
  | nil =>
      obtain ⟨fuel, rfl⟩ := Nat.exists_eq_succ_of_ne_zero (Nat.ne_zero_of_lt hfuel)
      rfl
  | cons c cs ih =>
      obtain ⟨fuel, rfl⟩ := Nat.exists_eq_succ_of_ne_zero (Nat.ne_zero_of_lt hfuel)
      unfold readParts?
      split
      · exact absurd ‹_› (List.cons_ne_nil _ _)
      · exact absurd ‹_› (h.ne_cons (by decide))
      · exact absurd ‹_› (h.ne_cons (by decide))
      · exact absurd ‹_› (h.ne_cons (by decide))
      · rename_i heq
        obtain ⟨rfl, rfl⟩ := List.cons.inj heq
        rw [ih h.tail (Nat.lt_of_succ_lt_succ hfuel)]
        rfl

theorem keepsPlainText_compile : KeepsPlainText compile := by
  intro name text h
  have hparts := readParts?_plain h (Nat.lt_succ_self _)
  refine ⟨_, by rw [compile, hparts], fun context => ?_⟩
  simp [Parts.fill?]

end Template

/-! ## Values -/

section
variable {α : Type}

/-- A value that is read without an error fits. -/
theorem Kind.fit_of_decode {kind : Kind α} {value : Toml.Value} {a : α}
    (h : Libraries.own.decode kind value = .ok a) : kind.fit value = .ok a := by
  have hfit : (kind.fit value).mapError Mismatch.text = .ok a := h
  cases hkind : kind.fit value with
  | error mismatch =>
      rw [hkind] at hfit
      cases hfit
  | ok b =>
      rw [hkind] at hfit
      exact congrArg Except.ok (Except.ok.inj hfit)

theorem Kind.decode_of_fit {kind : Kind α} {value : Toml.Value} {a : α}
    (h : kind.fit value = .ok a) : Libraries.own.decode kind value = .ok a := by
  show (kind.fit value).mapError Mismatch.text = _
  rw [h]
  rfl

variable {fields : Fields α} {table : Toml.Table} {a : α}

/-- The name of a value is found with that value, where names are different. -/
theorem find?_of_mem (hnodup : (table.map Prod.fst).Nodup) {entry : String × Toml.Value}
    (h : entry ∈ table) : table.find? entry.1 = some entry.2 := by
  obtain ⟨before, behind, rfl⟩ := List.append_of_mem h
  rw [List.map_append, List.map_cons, List.nodup_append] at hnodup
  refine List.lookup_eq_some_iff.2 ⟨before, behind, rfl, fun other hother => ?_⟩
  rw [bne_iff_ne]
  exact (hnodup.2.2 _ (List.mem_map_of_mem hother) _ List.mem_cons_self).symm

/-- The values from which a record is made fit its fields. -/
theorem Fields.check_reads (h : fields.Reads Libraries.own.decode table a) {key : String}
    {value : Toml.Value} (hvalue : table.find? key = some value) :
    fields.check key value = .ok () := by
  induction h with
  | make a => rfl
  | @found _ _ before name kind default? f found b _ hfind hdecode ih =>
      rw [check, ih]
      by_cases hkey : name = key
      · subst hkey
        obtain rfl : found = value := Option.some.inj (hfind.symm.trans hvalue)
        rw [if_pos rfl, Kind.fit_of_decode hdecode]
        rfl
      · rw [if_neg hkey]
        rfl
  | @leftOut _ _ before name kind default? f b _ hfind hdefault ih =>
      have hkey : name ≠ key := by
        intro heq
        rw [heq, hvalue] at hfind
        cases hfind
      rw [check, ih, if_neg hkey]
      rfl

/-- A record is read from the values of which it is made. -/
theorem Fields.ofTable_reads (h : fields.Reads Libraries.own.decode table a) :
    fields.ofTable table = .ok a := by
  induction h with
  | make a => rfl
  | found _ hfind hdecode ih =>
      simp only [ofTable, ih, hfind, Kind.fit_of_decode hdecode]
      rfl
  | leftOut _ hfind hdefault ih =>
      simp only [ofTable, ih, hfind, hdefault]
      rfl

end

theorem Toml.forM_eq_ok {table : Toml.Table} {check : String × Toml.Value → Fit Unit}
    (h : ∀ entry ∈ table, check entry = .ok ()) : table.forM check = .ok () := by
  rw [List.forM_eq_forM]
  induction table with
  | nil => rfl
  | cons entry table ih =>
      obtain ⟨hentry, htable⟩ := List.forall_mem_cons.1 h
      rw [List.forM_cons, hentry]
      exact ih htable

theorem decodesRecords_own : DecodesRecords Libraries.own.decode where
  text text := rfl
  word {n} h := by
    refine Kind.decode_of_fit ?_
    rw [Kind.fit, Fit.word, if_pos (by omega), Int.toNat_natCast]
    rfl
  optional h := by
    refine Kind.decode_of_fit ?_
    rw [Kind.fit, Kind.fit_of_decode h]
    rfl
  record {α} name {fields table a} _ hnodup h := by
    have hcheck : table.forM (fun entry => fields.check entry.1 entry.2) = .ok () :=
      Toml.forM_eq_ok fun entry hentry => Fields.check_reads h (find?_of_mem hnodup hentry)
    refine Kind.decode_of_fit ?_
    simp only [Kind.fit, hcheck, Fields.ofTable_reads h]
    rfl

end TilePyramid
