import Mathlib
import TilePyramid.Proofs.Libraries

/-!
# Patterns that are found

The search for a pattern goes through the texts that can stand behind it, at each place of a text
(`Pattern.mem_behind_iff`, `Pattern.finds_iff`), and a pattern is read from its own text
(`Pattern.read?_chars`). So the compiled test finds the pattern wherever it matches.
-/

namespace TilePyramid.Text.Pattern

variable {p : Pattern} {cs rest : List Char}

/-! ## The search -/

theorem mem_behindLetters_iff : rest ∈ behindLetters cs ↔
    ∃ run, run ≠ [] ∧ (∀ c ∈ run, c.isAlphanum = true) ∧ run ++ rest = cs := by
  induction cs with
  | nil => simp [behindLetters]
  | cons c cs ih =>
      rw [behindLetters]
      split
      · rename_i hc
        rw [List.mem_cons, ih]
        constructor
        · intro h
          rcases h with rfl | ⟨run, -, hrun, rfl⟩
          · exact ⟨[c], List.cons_ne_nil _ _, by simpa using hc, rfl⟩
          · exact ⟨c :: run, List.cons_ne_nil _ _, List.forall_mem_cons.2 ⟨hc, hrun⟩, rfl⟩
        · intro h
          obtain ⟨run, hne, hrun, heq⟩ := h
          cases run with
          | nil => exact absurd rfl hne
          | cons d run =>
              obtain ⟨rfl, rfl⟩ := List.cons.inj heq
              cases run with
              | nil => exact .inl rfl
              | cons e run =>
                  exact .inr ⟨e :: run, List.cons_ne_nil _ _, (List.forall_mem_cons.1 hrun).2, rfl⟩
      · rename_i hc
        refine iff_of_false List.not_mem_nil ?_
        intro h
        obtain ⟨run, hne, hrun, heq⟩ := h
        cases run with
        | nil => exact hne rfl
        | cons d run =>
            obtain ⟨rfl, -⟩ := List.cons.inj heq
            exact hc (hrun d List.mem_cons_self)

/-- What can stand behind a pattern is what a match of it leaves. -/
theorem mem_behind_iff : rest ∈ p.behind cs ↔ ∃ part, p.Matches part ∧ part ++ rest = cs := by
  induction p generalizing cs rest with
  | nothing =>
      rw [behind, List.mem_singleton]
      constructor
      · intro h
        exact ⟨[], .nothing, h⟩
      · intro h
        obtain ⟨part, ⟨⟩, rfl⟩ := h
        rfl
  | sign c hc p ih =>
      cases cs with
      | nil =>
          refine iff_of_false List.not_mem_nil ?_
          intro h
          obtain ⟨part, ⟨⟩, heq⟩ := h
          exact List.cons_ne_nil _ _ heq
      | cons d cs =>
          rw [behind]
          constructor
          · intro h
            split at h
            · rename_i heq
              obtain ⟨part, hpart, rfl⟩ := ih.1 h
              exact ⟨c :: part, .sign hpart, by rw [heq, List.cons_append]⟩
            · exact absurd h List.not_mem_nil
          · intro h
            obtain ⟨part, hmatch, heq⟩ := h
            cases hmatch with
            | sign hpart =>
                obtain ⟨rfl, rfl⟩ := List.cons.inj heq
                rw [if_pos rfl]
                exact ih.2 ⟨_, hpart, rfl⟩
  | letters p ih =>
      rw [behind, List.mem_flatMap]
      constructor
      · intro h
        obtain ⟨cs', hbehind, hrest⟩ := h
        obtain ⟨run, hne, hrun, rfl⟩ := mem_behindLetters_iff.1 hbehind
        obtain ⟨part, hpart, rfl⟩ := ih.1 hrest
        exact ⟨run ++ part, .letters hne hrun hpart, List.append_assoc _ _ _⟩
      · intro h
        obtain ⟨part, hmatch, rfl⟩ := h
        cases hmatch with
        | letters hne hrun hpart =>
            exact ⟨_, mem_behindLetters_iff.2 ⟨_, hne, hrun, (List.append_assoc _ _ _).symm⟩,
              ih.2 ⟨_, hpart, rfl⟩⟩
  | group inner p ihinner ih =>
      rw [behind, List.mem_flatMap]
      constructor
      · intro h
        obtain ⟨cs', hinner, hrest⟩ := h
        obtain ⟨part, hpart, rfl⟩ := ihinner.1 hinner
        obtain ⟨part', hpart', rfl⟩ := ih.1 hrest
        exact ⟨part ++ part', .group hpart hpart', List.append_assoc _ _ _⟩
      · intro h
        obtain ⟨part, hmatch, rfl⟩ := h
        cases hmatch with
        | group hpart hpart' =>
            exact ⟨_, ihinner.2 ⟨_, hpart, (List.append_assoc _ _ _).symm⟩, ih.2 ⟨_, hpart', rfl⟩⟩

/-- Something can stand behind a pattern if it matches the front of the text. -/
theorem isEmpty_behind_eq_false_iff :
    (p.behind cs).isEmpty = false ↔ ∃ part, p.Matches part ∧ part <+: cs := by
  rw [List.isEmpty_eq_false_iff_exists_mem]
  simp only [mem_behind_iff]
  exact exists_comm.trans (exists_congr fun part => exists_and_left)

/-- A pattern is found wherever it matches. -/
theorem finds_iff : p.finds cs = true ↔ ∃ part, p.Matches part ∧ part <:+: cs := by
  induction cs with
  | nil =>
      rw [finds, Bool.not_eq_true', isEmpty_behind_eq_false_iff]
      simp only [List.prefix_nil, List.infix_nil]
  | cons c cs ih =>
      rw [finds, Bool.or_eq_true, Bool.not_eq_true', isEmpty_behind_eq_false_iff, ih]
      simp only [List.infix_cons_iff, and_or_left, exists_or]

/-! ## The text of a pattern -/

/-- A pattern is read up to the end of the text or to a closing parenthesis. -/
theorem read?_chars (p : Pattern) {fuel : Nat} (hfuel : p.chars.length < fuel)
    (hrest : rest = [] ∨ rest.head? = some ')') :
    read? fuel (p.chars ++ rest) = some (p, rest) := by
  induction p generalizing fuel rest with
  | nothing =>
      obtain ⟨fuel, rfl⟩ := Nat.exists_eq_succ_of_ne_zero (Nat.ne_zero_of_lt hfuel)
      rcases hrest with rfl | hrest
      · rfl
      · obtain ⟨rest, rfl⟩ := List.head?_eq_some_iff.1 hrest
        rfl
  | sign c hc p ih =>
      obtain ⟨fuel, rfl⟩ := Nat.exists_eq_succ_of_ne_zero (Nat.ne_zero_of_lt hfuel)
      simp only [chars, List.length_cons] at hfuel
      have hread : read? fuel (p.chars ++ rest) = some (p, rest) := ih (by omega) hrest
      simp only [chars, List.cons_append, read?, hc, ↓reduceDIte, hread, Option.map_some]
  | letters p ih =>
      obtain ⟨fuel, rfl⟩ := Nat.exists_eq_succ_of_ne_zero (Nat.ne_zero_of_lt hfuel)
      simp only [chars, lettersText, List.length_append, List.length_cons] at hfuel
      have hread : read? fuel (p.chars ++ rest) = some (p, rest) := ih (by omega) hrest
      have hrun : read? (fuel + 1) (lettersText ++ (p.chars ++ rest)) =
          (read? fuel (p.chars ++ rest)).map (Prod.map letters id) := rfl
      rw [chars, List.append_assoc, hrun, hread]
      rfl
  | group inner p ihinner ih =>
      obtain ⟨fuel, rfl⟩ := Nat.exists_eq_succ_of_ne_zero (Nat.ne_zero_of_lt hfuel)
      simp only [chars, List.length_cons, List.length_append] at hfuel
      have hinner : read? fuel (inner.chars ++ ')' :: (p.chars ++ rest)) =
          some (inner, ')' :: (p.chars ++ rest)) := ihinner (by omega) (.inr rfl)
      have hread : read? fuel (p.chars ++ rest) = some (p, rest) := ih (by omega) hrest
      simp only [chars, List.cons_append, List.append_assoc, read?, hinner, hread,
        Option.bind_eq_bind, Option.bind_some, Option.map_some]

/-- A pattern is compiled from its text. -/
theorem compile_text (p : Pattern) :
    compile p.text = .ok fun searched => p.finds searched.toList := by
  have hread : read? (p.text.length + 1) (p.chars ++ []) = some (p, []) :=
    p.read?_chars (by simp [text]) (.inl rfl)
  rw [List.append_nil] at hread
  rw [compile, text, String.toList_ofList, ← text, hread]

theorem findsPatterns_compile : FindsPatterns compile :=
  fun p _ => ⟨_, p.compile_text, fun _ => finds_iff⟩

end TilePyramid.Text.Pattern
