import Mathlib
import TilePyramid.Config.Readers
import TilePyramid.Proofs.Libraries
import TilePyramid.Proofs.Numerals

/-!
# Plain documents

Sections of plain values are read as the tables that they describe. `PlainLines text lines` relates
the text of such a document to its lines: a header or a key with its value on each of them, and
empty lines between them. `parse?_of_plain` says that the document is read as these lines. The
readers take a part from the front of a text and leave the rest of it, so the lemma about each of
them has any rest behind the part. The lines of a section add one table to a draft (`foldlM_lines`),
so a document becomes one table for each of its sections (`readsSections_read`).
-/

namespace TilePyramid.Toml

/-! ## Runs at the front of a text -/

section
variable {p : Char → Bool} {run rest : List Char}

/-- The run at the front of a text ends before the first character that does not belong to it. -/
theorem takeWhile_run (hrun : ∀ c ∈ run, p c = true) (hstop : ∀ c ∈ rest.head?, p c = false) :
    (run ++ rest).takeWhile p = run := by
  rw [List.takeWhile_append_of_pos hrun]
  cases rest with
  | nil => simp
  | cons c rest => simp [hstop c rfl]

theorem dropWhile_run (hrun : ∀ c ∈ run, p c = true) (hstop : ∀ c ∈ rest.head?, p c = false) :
    (run ++ rest).dropWhile p = rest := by
  rw [List.dropWhile_append_of_pos hrun]
  cases rest with
  | nil => rfl
  | cons c rest => simp [hstop c rfl]

end

/-! ## Words and blanks -/

/-- A word before this text ends there. -/
def EndsWord (rest : List Char) : Prop := ∀ c ∈ rest.head?, isWordChar c = false

variable {c d : Char} {cs key rest behind : List Char} {keys : List (List Char)}

theorem ne_of_isWordChar (hc : isWordChar c = true) (hd : isWordChar d = false) : c ≠ d := by
  intro heq
  rw [heq, hd] at hc
  exact Bool.false_ne_true hc

theorem isBlank_eq_false (hc : isWordChar c = true) : isBlank c = false := by
  have hblank : c ≠ ' ' := ne_of_isWordChar hc (by decide)
  have htab : c ≠ '\t' := ne_of_isWordChar hc (by decide)
  simp [isBlank, hblank, htab]

theorem skipBlanks_cons (hc : isBlank c = false) : skipBlanks (c :: cs) = c :: cs :=
  List.dropWhile_cons_of_neg (by simp [hc])

theorem skipBlanks_word (h : IsWord cs) : skipBlanks (cs ++ rest) = cs ++ rest := by
  cases cs with
  | nil => exact absurd rfl h.1
  | cons c cs => exact skipBlanks_cons (isBlank_eq_false (h.2 c List.mem_cons_self))

theorem IsWord.not_mem (h : IsWord cs) (hd : isWordChar d = false) : d ∉ cs :=
  fun hmem => ne_of_isWordChar (h.2 d hmem) hd rfl

/-- A text that begins with a word does not begin with another character. -/
theorem IsWord.append_ne_cons (h : IsWord cs) (hd : isWordChar d = false) :
    cs ++ rest ≠ d :: behind := by
  cases cs with
  | nil => exact absurd rfl h.1
  | cons c cs =>
      intro heq
      exact ne_of_isWordChar (h.2 c List.mem_cons_self) hd (List.cons.inj heq).1

theorem endsWord_line (rest : List Char) : EndsWord ('\n' :: rest) := by
  simp [EndsWord, isWordChar]

theorem word_line (h : IsWord cs) : word (cs ++ '\n' :: rest) = cs :=
  takeWhile_run h.2 (endsWord_line rest)

theorem behindWord_line (h : IsWord cs) :
    behindWord (cs ++ '\n' :: rest) = '\n' :: rest :=
  dropWhile_run h.2 (endsWord_line rest)

/-! ## Keys -/

theorem readKey?_word (h : IsWord key) (hrest : EndsWord rest) :
    readKey? (key ++ rest) = some (String.ofList key, rest) := by
  cases key with
  | nil => exact absurd rfl h.1
  | cons c key => simp only [readKey?, takeWhile_run h.2 hrest, dropWhile_run h.2 hrest]

theorem length_le_length_dotted (keys : List (List Char)) :
    keys.length ≤ (dotted keys).length := by
  induction keys with
  | nil => exact Nat.le_refl 0
  | cons key keys ih =>
      simp only [dotted, List.flatMap_cons, List.length_append, List.length_cons] at ih ⊢
      omega

theorem endsWord_dotted (hrest : EndsWord rest) : EndsWord (dotted keys ++ rest) := by
  cases keys with
  | nil => exact hrest
  | cons key keys =>
      intro c hc
      obtain rfl : '.' = c := by simpa [dotted] using hc
      decide

/-- Keys go on behind a dot, and end before anything else but a blank. -/
theorem readMoreKeys?_dotted (hkeys : ∀ key ∈ keys, IsWord key) (hrest : EndsWord rest)
    (hbehind : skipBlanks rest = d :: behind) (hd : d ≠ '.') {fuel : Nat}
    (hfuel : keys.length < fuel) :
    readMoreKeys? fuel (dotted keys ++ rest) = some (keys.map String.ofList, d :: behind) := by
  induction keys generalizing fuel with
  | nil =>
      obtain ⟨fuel, rfl⟩ := Nat.exists_eq_succ_of_ne_zero hfuel.ne'
      show readMoreKeys? (fuel + 1) rest = _
      rw [readMoreKeys?, hbehind]
      split
      · rename_i heq
        exact absurd (List.cons.inj heq).1 hd
      · rfl
  | cons key keys ih =>
      obtain ⟨fuel, rfl⟩ := Nat.exists_eq_succ_of_ne_zero (Nat.ne_zero_of_lt hfuel)
      obtain ⟨hkey, hkeys⟩ := List.forall_mem_cons.1 hkeys
      have htext : dotted (key :: keys) ++ rest = '.' :: (key ++ (dotted keys ++ rest)) := by
        simp [dotted]
      have hmore := ih hkeys (Nat.lt_of_succ_lt_succ hfuel)
      rw [htext, readMoreKeys?, skipBlanks_cons (by decide)]
      simp [skipBlanks_word hkey, readKey?_word hkey (endsWord_dotted hrest), hmore]

theorem readDottedKey?_dotted (hkey : IsWord key) (hkeys : ∀ key ∈ keys, IsWord key)
    (hrest : EndsWord rest) (hbehind : skipBlanks rest = d :: behind) (hd : d ≠ '.') :
    readDottedKey? (key ++ (dotted keys ++ rest)) =
      some ((String.ofList key, keys.map String.ofList), d :: behind) := by
  have hfuel : keys.length < (key ++ (dotted keys ++ rest)).length + 1 := by
    have hlength := length_le_length_dotted keys
    simp only [List.length_append]
    omega
  simp only [readDottedKey?, skipBlanks_word hkey, readKey?_word hkey (endsWord_dotted hrest),
    Option.bind_eq_bind, Option.bind_some, readMoreKeys?_dotted hkeys hrest hbehind hd hfuel]
  rfl

/-! ## Values -/

/-- A literal as it is read. -/
def Literal.item : Literal → Item
  | text t => .string t
  | number n => .integer n

@[simp] theorem Literal.value_item (literal : Literal) : literal.item.value = literal.value := by
  cases literal <;> rfl

theorem isTextChar_of_unescaped (h : ' ' ≤ c ∧ c ≠ '\x7f' ∧ c ≠ '"' ∧ c ≠ '\\') :
    isTextChar c = true := by
  simp [isTextChar, h.1, h.2.1]

theorem readContent?_unescaped (h : IsUnescaped cs) (rest : List Char) :
    Text.readContent? ⟨'"', true, false⟩ (cs ++ '"' :: rest) = some (cs, rest) := by
  induction cs with
  | nil =>
      unfold Text.readContent?
      rfl
  | cons c cs ih =>
      obtain ⟨hc, hcs⟩ := List.forall_mem_cons.1 h
      have htext := isTextChar_of_unescaped hc
      obtain ⟨-, -, hquote, hslash⟩ := hc
      rw [List.cons_append]
      unfold Text.readContent?
      simp only [hquote, hslash, htext, ih hcs]
      rfl

/-- A quote without two more behind it begins a text on one line. -/
theorem readQuoted?_single (h : ¬ (c = '"' ∧ d = '"')) :
    Text.readQuoted? '"' true ('"' :: c :: d :: rest) =
      (Text.readContent? ⟨'"', true, false⟩ (c :: d :: rest)).map fun (text, behind) =>
        (String.ofList text, behind) := by
  simp [Text.readQuoted?, h]

theorem readQuoted?_unescaped (h : IsUnescaped cs) (rest : List Char) :
    Text.readQuoted? '"' true ('"' :: (cs ++ '"' :: '\n' :: rest)) =
      some (String.ofList cs, '\n' :: rest) := by
  have hcontent := readContent?_unescaped h ('\n' :: rest)
  obtain ⟨c, d, tail, htail, hsingle⟩ : ∃ c d tail, cs ++ '"' :: '\n' :: rest = c :: d :: tail ∧
      ¬ (c = '"' ∧ d = '"') := by
    cases cs with
    | nil => exact ⟨'"', '\n', rest, rfl, by decide⟩
    | cons c cs =>
        have hquote : c ≠ '"' := (h c List.mem_cons_self).2.2.1
        cases cs with
        | nil => exact ⟨c, '"', '\n' :: rest, rfl, fun heq => hquote heq.1⟩
        | cons d cs => exact ⟨c, d, cs ++ '"' :: '\n' :: rest, rfl, fun heq => hquote heq.1⟩
  rw [htail] at hcontent ⊢
  rw [readQuoted?_single hsingle, hcontent]
  rfl

/-! ### Numbers -/

/-- The characters are digits, of which the first one is no zero unless it is the only one. -/
structure IsNumber (cs : List Char) : Prop where
  ne_nil : cs ≠ []
  isDigit : ∀ c ∈ cs, c.isDigit = true
  canonical : cs.length = 1 ∨ cs.head? ≠ some '0'

theorem isNumber_toDigits (n : Nat) : IsNumber (Nat.toDigits 10 n) where
  ne_nil := Nat.toDigits_ne_nil
  isDigit _ := Nat.isDigit_of_mem_toDigits (by decide) (Nat.le_refl 10)
  canonical := by
    cases n with
    | zero => exact .inl rfl
    | succ n => exact .inr (head?_toDigits_ne n.succ_pos)

theorem ne_of_isDigit (hc : c.isDigit = true) (hd : d.isDigit = false) : c ≠ d := by
  intro heq
  rw [heq, hd] at hc
  exact Bool.false_ne_true hc

theorem digit?_eq (hc : c.isDigit = true) : Number.digit? 10 c = some (c.toNat - '0'.toNat) := by
  obtain ⟨hlow, hhigh⟩ := isDigit_iff.1 hc
  have hlt : c.toNat - '0'.toNat < 10 := by
    have hnine : c.toNat ≤ '9'.toNat := hhigh
    have hvalue : '9'.toNat = '0'.toNat + 9 := rfl
    omega
  rw [Number.digit?, hexDigit?, if_pos hc, Option.filter_some, decide_eq_true hlt, if_pos rfl]

theorem isWellSpaced_of_not_mem (hne : cs ≠ []) (hgap : '_' ∉ cs) :
    Number.isWellSpaced cs = true := by
  induction cs with
  | nil => exact absurd rfl hne
  | cons c cs ih =>
      obtain ⟨hc, hcs⟩ := List.ne_and_not_mem_of_not_mem_cons hgap
      cases cs with
      | nil => simp [Number.isWellSpaced, hc.symm]
      | cons d cs =>
          obtain ⟨hd, -⟩ := List.ne_and_not_mem_of_not_mem_cons hcs
          have hrest := ih (List.cons_ne_nil _ _) hcs
          unfold Number.isWellSpaced
          simp [hc.symm, hd.symm, hrest]

theorem foldl_digits (hdigits : ∀ c ∈ cs, c.isDigit = true) (start : Nat) :
    cs.foldl (fun value c => 10 * value + (Number.digit? 10 c).getD 0) start =
      Nat.ofDigitChars 10 cs start := by
  induction cs generalizing start with
  | nil => rw [List.foldl_nil, Nat.ofDigitChars_nil]
  | cons c cs ih =>
      obtain ⟨hc, hcs⟩ := List.forall_mem_cons.1 hdigits
      rw [List.foldl_cons, Nat.ofDigitChars_cons, digit?_eq hc, Option.getD_some, ih hcs]

theorem integer?_natCast {n : Nat} (h : n < 2 ^ 63) :
    Number.integer? n = some (.integer n) := by
  rw [Number.integer?, if_pos]
  omega

namespace IsNumber

variable (h : IsNumber cs)

include h

theorem isWord : IsWord cs := by
  refine ⟨h.ne_nil, fun c hc => ?_⟩
  simp [isWordChar, Char.isAlphanum, h.isDigit c hc]

theorem not_mem (hd : d.isDigit = false) : d ∉ cs :=
  fun hmem => ne_of_isDigit (h.isDigit d hmem) hd rfl

/-- Digits are no text with another character. -/
theorem ofList_ne {text : String} (htext : text.toList.all Char.isDigit = false) :
    String.ofList cs ≠ text := by
  intro heq
  rw [← heq, String.toList_ofList, ← Bool.not_eq_true, List.all_eq_true] at htext
  exact htext h.isDigit

theorem readDigits? : Number.readDigits? 10 false cs = some (cs, []) := by
  have hrun : ∀ c ∈ cs, Number.isDigitOrGap 10 c = true := by
    intro c hc
    simp [Number.isDigitOrGap, digit?_eq (h.isDigit c hc)]
  have hspaced := isWellSpaced_of_not_mem h.ne_nil (h.not_mem (d := '_') (by decide))
  have hdigits : cs.filter (· ≠ '_') = cs := by
    rw [List.filter_eq_self]
    intro c hc
    exact decide_eq_true (ne_of_isDigit (h.isDigit c hc) (by decide))
  rw [Number.readDigits?, List.takeWhile_eq_self_iff.2 hrun, List.dropWhile_eq_nil_iff.2 hrun,
    hdigits]
  exact if_pos ⟨hspaced, .inr h.canonical⟩

theorem readSign : Number.readSign cs = (false, cs) := by
  unfold Number.readSign
  split
  · exact absurd List.mem_cons_self (h.not_mem (d := '-') (by decide))
  · exact absurd List.mem_cons_self (h.not_mem (d := '+') (by decide))
  · rfl

/-- Digits without a sign are read in base 10. -/
theorem ofWord? (hbound : Nat.ofDigitChars 10 cs 0 < 2 ^ 63) :
    Number.ofWord? cs = some (.integer (Nat.ofDigitChars 10 cs 0)) := by
  have hvalue : Number.ofDigits 10 cs = Nat.ofDigitChars 10 cs 0 := foldl_digits h.isDigit 0
  rw [Number.ofWord?, h.readSign]
  show (Number.readDigits? 10 false cs).bind _ = _
  rw [h.readDigits?, Option.bind_some]
  dsimp only
  rw [if_pos List.isEmpty_nil, hvalue, Number.signed, if_neg Bool.false_ne_true,
    integer?_natCast hbound]

theorem readFrom? (hbound : Nat.ofDigitChars 10 cs 0 < 2 ^ 63) (rest : List Char) :
    Number.readFrom? cs ('\n' :: rest) =
      some (.integer (Nat.ofDigitChars 10 cs 0), '\n' :: rest) := by
  have hsecond {d : Char} {digits : List Char} (hd : d.isDigit = false) :
      cs ≠ '0' :: d :: digits := by
    intro heq
    exact h.not_mem hd (heq ▸ List.mem_cons_of_mem _ List.mem_cons_self)
  have hexponent : (cs.contains 'e' || cs.contains 'E') = false := by
    simp [h.not_mem (d := 'e') (by decide), h.not_mem (d := 'E') (by decide)]
  unfold Number.readFrom?
  split
  · exact absurd rfl (hsecond (d := 'x') (by decide))
  · exact absurd rfl (hsecond (d := 'o') (by decide))
  · exact absurd rfl (hsecond (d := 'b') (by decide))
  · rw [if_neg (by rw [hexponent]; exact Bool.false_ne_true)]
    split
    · rename_i heq
      exact absurd (List.cons.inj heq).1 (by decide)
    · split
      · exact absurd ‹_› (h.ofList_ne (by decide))
      · exact absurd ‹_› (h.ofList_ne (by decide))
      · exact absurd ‹_› (h.ofList_ne (by decide))
      · exact absurd ‹_› (h.ofList_ne (by decide))
      · rw [h.ofWord? hbound]
        rfl

/-- The first digit is no sign, so the number begins with its word, which a line break ends. -/
theorem read? (hbound : Nat.ofDigitChars 10 cs 0 < 2 ^ 63) (rest : List Char) :
    Number.read? (cs ++ '\n' :: rest) =
      some (.integer (Nat.ofDigitChars 10 cs 0), '\n' :: rest) := by
  unfold Number.read?
  split
  · rename_i heq
    exact absurd heq (h.isWord.append_ne_cons (by decide))
  · rw [word_line h.isWord, behindWord_line h.isWord, if_neg (by simp [h.ne_nil]),
      h.readFrom? hbound]

theorem beginsDate_eq_false (rest : List Char) : beginsDate cs ('\n' :: rest) = false := by
  have hyphen : '-' ∉ cs.tail := fun hmem => h.not_mem (by decide) (List.mem_of_mem_tail hmem)
  simp [beginsDate, h.not_mem (d := 'T') (by decide), h.not_mem (d := 't') (by decide), hyphen]

theorem readPlain? (hbound : Nat.ofDigitChars 10 cs 0 < 2 ^ 63) (rest : List Char) :
    readPlain? (cs ++ '\n' :: rest) =
      some (.integer (Nat.ofDigitChars 10 cs 0), '\n' :: rest) := by
  have hread := h.read? hbound rest
  unfold Toml.readPlain?
  rw [word_line h.isWord, behindWord_line h.isWord]
  split
  · exact absurd ‹_› (h.ofList_ne (by decide))
  · exact absurd ‹_› (h.ofList_ne (by decide))
  · cases cs with
    | nil => exact absurd rfl h.ne_nil
    | cons c cs =>
        have hdigit := h.isDigit c List.mem_cons_self
        have hplus : c ≠ '+' := ne_of_isDigit hdigit (by decide)
        rw [List.cons_append] at hread ⊢
        split
        · rename_i heq
          exact absurd (List.cons.inj heq).1 hplus
        · rename_i heq
          obtain ⟨rfl, -⟩ := List.cons.inj heq
          rw [if_pos (.inr (.inr (.inr hdigit))), h.beginsDate_eq_false,
            if_neg Bool.false_ne_true, hread]
        · rename_i heq
          cases heq

end IsNumber

theorem skipBlanks_literal (literal : Literal) (rest : List Char) :
    Toml.skipBlanks (literal.chars ++ rest) = literal.chars ++ rest := by
  cases literal with
  | text t => exact skipBlanks_cons (by decide)
  | number n => exact skipBlanks_word (isNumber_toDigits n).isWord

/-- A literal is read up to the end of its line. -/
theorem readValue?_literal {literal : Literal} (h : literal.IsPlain) (rest : List Char)
    (fuel : Nat) :
    readValue? (fuel + 1) (literal.chars ++ '\n' :: rest) = some (literal.item, '\n' :: rest) := by
  cases literal with
  | text t =>
      have htext : '"' :: (t.toList ++ ['"']) ++ '\n' :: rest =
          '"' :: (t.toList ++ '"' :: '\n' :: rest) := by
        simp
      rw [Literal.chars, htext, readValue?, Text.read?, readQuoted?_unescaped h,
        String.ofList_toList]
      rfl
  | number n =>
      have hbound : n < 2 ^ 63 := h
      have hnumber := isNumber_toDigits n
      have hread := hnumber.readPlain? (by rwa [Nat.ofDigitChars_ten_toDigits]) rest
      rw [Nat.ofDigitChars_ten_toDigits] at hread
      rw [Literal.chars]
      unfold readValue?
      split
      · exact absurd ‹_› (hnumber.isWord.append_ne_cons (by decide))
      · exact absurd ‹_› (hnumber.isWord.append_ne_cons (by decide))
      · exact absurd ‹_› (hnumber.isWord.append_ne_cons (by decide))
      · exact absurd ‹_› (hnumber.isWord.append_ne_cons (by decide))
      · exact hread

/-! ## Lines -/

/-- The characters of a line that is written in a plain way. -/
inductive PlainLine : List Char → Line → Prop where
  /-- A header without blanks. -/
  | header (key : String) (keys : List String) :
      IsWord key.toList → (∀ key ∈ keys, IsWord key.toList) →
      PlainLine ('[' :: (key.toList ++ (dotted (keys.map String.toList) ++ [']'])))
        (.table key keys)
  /-- A word and a value with blanks around the sign between them. -/
  | pair (key : String) (literal : Literal) :
      IsWord key.toList → literal.IsPlain →
      PlainLine (key.toList ++ ' ' :: '=' :: ' ' :: literal.chars) (.pair key [] literal.item)

theorem readLine?_header (hkey : IsWord key) (hkeys : ∀ key ∈ keys, IsWord key)
    (rest : List Char) :
    readLine? ('[' :: (key ++ (dotted keys ++ ']' :: '\n' :: rest))) =
      some (.table (String.ofList key) (keys.map String.ofList), rest) := by
  have hbracket : EndsWord (']' :: '\n' :: rest) := by simp [EndsWord, isWordChar]
  have hskip : skipBlanks (']' :: '\n' :: rest) = ']' :: '\n' :: rest :=
    skipBlanks_cons (by decide)
  have hdotted := readDottedKey?_dotted hkey hkeys hbracket hskip (by decide)
  unfold readLine?
  split
  · rename_i heq
    exact absurd (List.cons.inj heq).2 (hkey.append_ne_cons (by decide))
  · rename_i heq
    obtain rfl := (List.cons.inj heq).2
    rw [hdotted]
    rfl
  · rename_i hheader
    exact absurd rfl (hheader _)

theorem readLine?_pair (hkey : IsWord key) {literal : Literal} (h : literal.IsPlain)
    (rest : List Char) :
    readLine? (key ++ ' ' :: '=' :: ' ' :: (literal.chars ++ '\n' :: rest)) =
      some (.pair (String.ofList key) [] literal.item, rest) := by
  have hblank : EndsWord (' ' :: '=' :: ' ' :: (literal.chars ++ '\n' :: rest)) := by
    simp [EndsWord, isWordChar]
  have hdotted := readDottedKey?_dotted hkey (List.forall_mem_nil _) hblank rfl (by decide)
  have hskip : skipBlanks (' ' :: (literal.chars ++ '\n' :: rest)) =
      literal.chars ++ '\n' :: rest := skipBlanks_literal literal _
  unfold readLine?
  split
  · exact absurd ‹_› (hkey.append_ne_cons (by decide))
  · exact absurd ‹_› (hkey.append_ne_cons (by decide))
  · rw [show key ++ ' ' :: '=' :: ' ' :: (literal.chars ++ '\n' :: rest) =
      key ++ (dotted [] ++ ' ' :: '=' :: ' ' :: (literal.chars ++ '\n' :: rest)) from rfl, hdotted]
    simp only [Option.bind_eq_bind, Option.bind_some, hskip, readValue?_literal h]
    rfl

/-- A line is read up to its end. -/
theorem readLine?_plain {line : Line} (h : PlainLine cs line) (rest : List Char) :
    readLine? (cs ++ '\n' :: rest) = some (line, rest) := by
  cases h with
  | header key keys hkey hkeys =>
      have hread := readLine?_header hkey (List.forall_mem_map.2 hkeys) rest
      simpa [Function.comp_def] using hread
  | pair key literal hkey hliteral =>
      have hread := readLine?_pair hkey hliteral rest
      simpa using hread

/-- The characters of lines that are written in a plain way, with empty lines between them. -/
inductive PlainLines : List Char → List Line → Prop where
  | nil : PlainLines [] []
  | blank (cs : List Char) (lines : List Line) :
      PlainLines cs lines → PlainLines ('\n' :: cs) lines
  | line (cs rest : List Char) (line : Line) (lines : List Line) :
      PlainLine cs line → PlainLines rest lines → PlainLines (cs ++ '\n' :: rest) (line :: lines)

/-- A line begins with a bracket or with a word. -/
theorem PlainLine.exists_cons {line : Line} (h : PlainLine cs line) :
    ∃ c tail, cs = c :: tail ∧ (c = '[' ∨ isWordChar c = true) := by
  cases h with
  | header key keys hkey hkeys => exact ⟨_, _, rfl, .inl rfl⟩
  | pair key literal hkey hliteral =>
      obtain ⟨c, tail, htail⟩ := List.exists_cons_of_ne_nil hkey.1
      rw [htail] at hkey ⊢
      exact ⟨c, _, rfl, .inr (hkey.2 c List.mem_cons_self)⟩

theorem PlainLine.append_ne_cons {line : Line} (h : PlainLine cs line)
    (hd : d ≠ '[' ∧ isWordChar d = false) : cs ++ rest ≠ d :: behind := by
  obtain ⟨c, tail, rfl, hfirst⟩ := h.exists_cons
  intro heq
  obtain rfl : c = d := (List.cons.inj heq).1
  cases hfirst with
  | inl hbracket => exact hd.1 hbracket
  | inr hword => exact ne_of_isWordChar hword hd.2 rfl

/-- Nothing is skipped at the front of a line. -/
theorem PlainLine.skipSpace {line : Line} (h : PlainLine cs line) (rest : List Char) (fuel : Nat) :
    Toml.skipSpace (fuel + 1) (cs ++ rest) = cs ++ rest := by
  have hskip : skipBlanks (cs ++ rest) = cs ++ rest := by
    obtain ⟨c, tail, rfl, hfirst⟩ := h.exists_cons
    cases hfirst with
    | inl hbracket => exact skipBlanks_cons (hbracket ▸ by decide)
    | inr hword => exact skipBlanks_cons (isBlank_eq_false hword)
  rw [Toml.skipSpace, hskip]
  split
  · exact absurd ‹_› (h.append_ne_cons (by decide))
  · exact absurd ‹_› (h.append_ne_cons (by decide))
  · rfl

theorem PlainLines.append {lines more : List Line} (h : PlainLines cs lines)
    (hmore : PlainLines behind more) : PlainLines (cs ++ behind) (lines ++ more) := by
  induction h with
  | nil => exact hmore
  | blank cs lines _ ih => exact .blank _ _ ih
  | line cs rest line lines hline _ ih =>
      rw [List.append_assoc, List.cons_append]
      exact .line _ _ _ _ hline ih

theorem readLines?_plain {lines : List Line} (h : PlainLines cs lines) {fuel : Nat}
    (hfuel : cs.length < fuel) : readLines? fuel cs = some lines := by
  induction h generalizing fuel with
  | nil =>
      obtain ⟨fuel, rfl⟩ := Nat.exists_eq_succ_of_ne_zero (Nat.ne_zero_of_lt hfuel)
      rfl
  | blank cs lines _ ih =>
      obtain ⟨fuel, rfl⟩ := Nat.exists_eq_succ_of_ne_zero (Nat.ne_zero_of_lt hfuel)
      have hrest : readLines? (fuel + 1) cs = some lines := ih (Nat.lt_of_succ_lt hfuel)
      exact hrest
  | line cs rest line lines hline _ ih =>
      obtain ⟨fuel, rfl⟩ := Nat.exists_eq_succ_of_ne_zero (Nat.ne_zero_of_lt hfuel)
      have hrest : readLines? fuel rest = some lines := by
        refine ih ?_
        simp only [List.length_append, List.length_cons] at hfuel
        omega
      rw [readLines?, hline.skipSpace]
      split
      · rename_i hnil
        simp at hnil
      · rw [readLine?_plain hline]
        simp only [Option.bind_eq_bind, Option.bind_some, hrest]
        rfl

/-! ## Documents -/

theorem foldNewlines_eq_self (h : '\r' ∉ cs) : foldNewlines cs = cs := by
  fun_induction foldNewlines cs with
  | case1 rest ih => exact absurd List.mem_cons_self h
  | case2 c rest _ ih => rw [ih (List.not_mem_of_not_mem_cons h)]
  | case3 => rfl

theorem PlainLines.dropMark {lines : List Line} (h : PlainLines cs lines) :
    Toml.dropMark cs = cs := by
  cases h with
  | nil => rfl
  | blank cs lines _ => rfl
  | line cs rest line lines hline _ =>
      unfold Toml.dropMark
      split
      · exact absurd ‹_› (hline.append_ne_cons (by decide))
      · rfl

/-- The values of a plain document are those that its lines add one after the other. -/
theorem parse?_of_plain {text : String} {lines : List Line} (h : PlainLines text.toList lines)
    (hreturn : '\r' ∉ text.toList) :
    parse? text = (lines.foldlM Draft.add? ⟨[], none⟩).map Draft.entries := by
  have hlines := readLines?_plain h (Nat.lt_succ_self _)
  rw [parse?, h.dropMark, foldNewlines_eq_self hreturn]
  simp only [hlines, Option.bind_eq_bind, Option.bind_some]
  exact Option.map_eq_bind.symm

/-! ## Sections -/

theorem Literal.IsPlain.return_not_mem {literal : Literal} (h : literal.IsPlain) :
    '\r' ∉ literal.chars := by
  cases literal with
  | text t =>
      have htext : '\r' ∉ t.toList := fun hmem => absurd (h _ hmem).1 (by decide)
      simp [chars, htext]
  | number n => exact (isNumber_toDigits n).not_mem (by decide)

namespace Section

variable {s : Section}

/-- The entries as they are read. -/
def items (s : Section) : Entries := s.entries.map fun entry => (entry.1, entry.2.item)

/-- The lines of a section. -/
def lines (s : Section) : List Line :=
  .table s.key s.keys :: s.items.map fun entry => .pair entry.1 [] entry.2

theorem plainLines_entries {entries : List (String × Literal)}
    (hnames : ∀ entry ∈ entries, IsWord entry.1.toList)
    (hliterals : ∀ entry ∈ entries, entry.2.IsPlain) :
    PlainLines (entries.flatMap entryChars)
      (entries.map fun entry => .pair entry.1 [] entry.2.item) := by
  induction entries with
  | nil => exact .nil
  | cons entry entries ih =>
      obtain ⟨hname, hnames⟩ := List.forall_mem_cons.1 hnames
      obtain ⟨hliteral, hliterals⟩ := List.forall_mem_cons.1 hliterals
      have hline := PlainLines.line _ _ _ _ (.pair _ _ hname hliteral) (ih hnames hliterals)
      simpa [entryChars] using hline

theorem plainLines (h : s.IsPlain) : PlainLines s.chars s.lines := by
  have hentries := plainLines_entries h.names h.literals
  have hline := PlainLines.line _ _ _ _ (.header _ _ h.key h.keys) hentries
  have hblank := PlainLines.blank _ _ hline
  simpa [chars, lines, items, Function.comp_def] using hblank

theorem plainLines_flatMap {sections : List Section} (h : ∀ s ∈ sections, s.IsPlain) :
    PlainLines (sections.flatMap chars) (sections.flatMap lines) := by
  induction sections with
  | nil => exact .nil
  | cons s sections ih =>
      obtain ⟨hs, hsections⟩ := List.forall_mem_cons.1 h
      exact (plainLines hs).append (ih hsections)

/-- A character that is neither one of a word nor a sign between words is in a section only if it is
in a literal. -/
theorem not_mem_chars (h : s.IsPlain) (hword : isWordChar c = false)
    (hsign : c ∉ ['\n', '[', ']', '.', ' ', '='])
    (hliterals : ∀ entry ∈ s.entries, c ∉ entry.2.chars) : c ∉ s.chars := by
  simp only [List.mem_cons, List.not_mem_nil, or_false, not_or] at hsign
  have hdotted : c ∉ dotted (s.keys.map String.toList) := by
    intro hmem
    obtain ⟨key, hkey, hin⟩ := List.mem_flatMap.1 hmem
    exact (List.forall_mem_map.2 h.keys key hkey).not_mem hword
      (List.mem_of_ne_of_mem hsign.2.2.2.1 hin)
  have hentries : c ∉ s.entries.flatMap entryChars := by
    intro hmem
    obtain ⟨entry, hentry, hin⟩ := List.mem_flatMap.1 hmem
    simp [entryChars, hsign, (h.names entry hentry).not_mem hword, hliterals entry hentry] at hin
  simp [chars, hsign, h.key.not_mem hword, hdotted, hentries]

/-- No line of a section ends with a carriage return. -/
theorem return_not_mem (h : s.IsPlain) : '\r' ∉ s.chars :=
  not_mem_chars h (by decide) (by decide) fun entry hentry =>
    (h.literals entry hentry).return_not_mem

end Section

/-! ## Drafts -/

/-- The table to which keys lead, where it has a header and the given entries so far. -/
def chain : List String → Entries → Item
  | [], entries => .table .header entries
  | key :: keys, entries => .table .path [(key, chain keys entries)]

section
variable {done entries : Entries} {key name : String} {keys : List String} {item item' : Item}

theorem find?_eq_none (h : name ∉ done.map Prod.fst) : done.find? name = none := by
  rw [Entries.find?, List.lookup_eq_none_iff]
  intro entry hentry
  rw [bne_iff_ne]
  intro heq
  exact h (heq ▸ List.mem_map_of_mem hentry)

theorem find?_append (h : name ∉ done.map Prod.fst) :
    Entries.find? (done ++ [(name, item)]) name = some item := by
  rw [Entries.find?, List.lookup_append, ← Entries.find?, find?_eq_none h, Option.none_or,
    List.lookup_cons_self]

theorem put_append (h : name ∉ done.map Prod.fst) :
    Entries.put name item' (done ++ [(name, item)]) = done ++ [(name, item')] := by
  induction done with
  | nil => simp [Entries.put]
  | cons entry done ih =>
      obtain ⟨hentry, hdone⟩ := List.ne_and_not_mem_of_not_mem_cons h
      rw [List.cons_append, Entries.put, if_neg hentry.symm, ih hdone, List.cons_append]

/-- A header makes the tables on the way to a new one. -/
theorem reach?_openTable? (h : key ∉ done.map Prod.fst) :
    Entries.reach? Entries.openTable? key keys done = some (done ++ [(key, chain keys [])]) := by
  induction keys generalizing key done with
  | nil => simp only [Entries.reach?, Entries.openTable?, find?_eq_none h, chain]
  | cons next keys ih =>
      have hinner : Entries.reach? Entries.openTable? next keys [] =
          some [(next, chain keys [])] := @ih [] next List.not_mem_nil
      simp only [Entries.reach?, find?_eq_none h, hinner, chain]
      rfl

/-- A key adds to the table that was opened last. -/
theorem reach?_insertInto? (h : key ∉ done.map Prod.fst) (hname : name ∉ entries.map Prod.fst) :
    Entries.reach? (Entries.insertInto? (name, []) item) key keys
        (done ++ [(key, chain keys entries)]) =
      some (done ++ [(key, chain keys (entries ++ [(name, item)]))]) := by
  induction keys generalizing key done with
  | nil =>
      simp only [Entries.reach?, Entries.insertInto?, find?_append h, chain, Entries.insert?,
        find?_eq_none hname, Option.bind_eq_bind, Option.bind_some, put_append h]
      rfl
  | cons next keys ih =>
      have hinner : Entries.reach? (Entries.insertInto? (name, []) item) next keys
          [(next, chain keys entries)] = some [(next, chain keys (entries ++ [(name, item)]))] :=
        @ih [] next List.not_mem_nil
      simp only [Entries.reach?, find?_append h, chain, hinner, Option.bind_eq_bind,
        Option.bind_some, put_append h]
      rfl

end

variable {s : Section}

/-- Keys with values add to the table that was opened last, one after the other. -/
theorem foldlM_pairs {done entries : Entries} {key : String} {keys : List String}
    (hkey : key ∉ done.map Prod.fst) {more : Entries}
    (hnodup : ((entries ++ more).map Prod.fst).Nodup) :
    (more.map fun entry => Line.pair entry.1 [] entry.2).foldlM Draft.add?
        ⟨done ++ [(key, chain keys entries)], some (key, keys)⟩ =
      some ⟨done ++ [(key, chain keys (entries ++ more))], some (key, keys)⟩ := by
  induction more generalizing entries with
  | nil =>
      rw [List.append_nil]
      rfl
  | cons entry more ih =>
      have hname : entry.1 ∉ entries.map Prod.fst := by
        rw [List.map_append, List.map_cons, List.nodup_append] at hnodup
        exact fun hmem => hnodup.2.2 _ hmem _ List.mem_cons_self rfl
      have hmore := @ih (entries ++ [entry]) (by simpa using hnodup)
      simp only [List.map_cons, List.foldlM_cons, Draft.add?, reach?_insertInto? hkey hname,
        Option.bind_eq_bind, Option.bind_some]
      simpa using hmore

/-- The lines of a section add one table. -/
theorem foldlM_lines {done : Entries} (hkey : s.key ∉ done.map Prod.fst) (h : s.IsPlain)
    (opened : Option (String × List String)) :
    s.lines.foldlM Draft.add? ⟨done, opened⟩ =
      some ⟨done ++ [(s.key, chain s.keys s.items)], some (s.key, s.keys)⟩ := by
  have hnodup : (([] ++ s.items).map Prod.fst).Nodup := by
    simpa [Section.items, Function.comp_def] using h.nodup
  have hpairs := @foldlM_pairs done [] s.key s.keys hkey s.items hnodup
  simp only [Section.lines, List.foldlM_cons, Draft.add?, reach?_openTable? hkey,
    Option.bind_eq_bind, Option.bind_some]
  exact hpairs

/-- The lines of sections add one table for each of them. -/
theorem foldlM_flatMap_lines {done : Entries} {sections : List Section}
    (h : ∀ s ∈ sections, s.IsPlain)
    (hnodup : (done.map Prod.fst ++ sections.map Section.key).Nodup)
    (opened : Option (String × List String)) :
    ((sections.flatMap Section.lines).foldlM Draft.add? ⟨done, opened⟩).map Draft.entries =
      some (done ++ sections.map fun s => (s.key, chain s.keys s.items)) := by
  induction sections generalizing done opened with
  | nil =>
      rw [List.map_nil, List.append_nil]
      rfl
  | cons s sections ih =>
      obtain ⟨hs, hsections⟩ := List.forall_mem_cons.1 h
      have hkey : s.key ∉ done.map Prod.fst := by
        rw [List.map_cons, List.nodup_append] at hnodup
        exact fun hmem => hnodup.2.2 _ hmem _ List.mem_cons_self rfl
      have hmore := @ih (done ++ [(s.key, chain s.keys s.items)]) hsections
        (by simpa using hnodup) (some (s.key, s.keys))
      rw [List.flatMap_cons, List.foldlM_append, foldlM_lines hkey hs opened]
      simpa using hmore

/-! ## Tables -/

theorem tableOf_eq_ofList (entries : Entries) :
    tableOf entries = Table.ofList (entries.map fun entry => (entry.1, entry.2.value)) := by
  induction entries with
  | nil => rfl
  | cons entry entries ih => rw [tableOf, List.map_cons, Table.ofList, ih]

theorem value_chain (keys : List String) (entries : Entries) :
    (chain keys entries).value = nest keys (tableOf entries) := by
  induction keys with
  | nil => rw [chain, Item.value, nest]
  | cons key keys ih =>
      rw [chain, Item.value, nest, ← ih]
      rfl

theorem tableOf_items (s : Section) : tableOf s.items = s.table := by
  rw [tableOf_eq_ofList, Section.table, Section.items, List.map_map]
  simp [Function.comp_def]

/-- Sections are read as the tables that they describe. -/
theorem readsSections_read : ReadsSections read := by
  intro sections h hnodup
  have hplain : PlainLines (String.ofList (sections.flatMap Section.chars)).toList
      (sections.flatMap Section.lines) := by
    rw [String.toList_ofList]
    exact Section.plainLines_flatMap h
  have hentries := @foldlM_flatMap_lines [] sections h hnodup none
  have hreturn : '\r' ∉ (String.ofList (sections.flatMap Section.chars)).toList := by
    rw [String.toList_ofList]
    intro hmem
    obtain ⟨s, hs, hin⟩ := List.mem_flatMap.1 hmem
    exact Section.return_not_mem (h s hs) hin
  rw [read, parse?_of_plain hplain hreturn, hentries, List.nil_append]
  simp [tableOf_eq_ofList (sections.map _), Function.comp_def, value_chain, tableOf_items]

end TilePyramid.Toml
