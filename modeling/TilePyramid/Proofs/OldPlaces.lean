import Mathlib
import TilePyramid.Config.Read
import TilePyramid.Config.Readers
import TilePyramid.Config.Settings
import TilePyramid.Proofs.Patterns

/-!
# Places marked in the older way

A configuration text with a place in the older way is refused before it is looked at as a template
and as a document. The pattern for such places is found wherever it matches, but it knows names of
letters and digits only: a place whose name has an underscore passes as text.
`Config.old_places_refused` says which texts are refused.
-/

namespace TilePyramid

namespace Template

/-! ## Places -/

/-- The place for a value in the older way. -/
def oldPlace (name : List Char) : List Char := '$' :: '\x7b' :: (name ++ ['\x7d'])

/-- The name is made of letters and digits of ASCII. -/
def IsOldName (name : List Char) : Prop := name ≠ [] ∧ ∀ c ∈ name, c.isAlphanum = true

/-- The name is made of letters and digits of ASCII and of underscores, as those of the values of an
environment are. -/
def IsVariableName (name : List Char) : Prop :=
  name ≠ [] ∧ ∀ c ∈ name, c.isAlphanum = true ∨ c = '_'

variable {cs before name name' behind behind' : List Char}

/-- A name of the environment is one in the older way if it has no underscore. -/
theorem isOldName_iff (h : IsVariableName name) : IsOldName name ↔ '_' ∉ name := by
  constructor
  · intro hold hmem
    exact absurd (hold.2 '_' hmem) (by decide)
  · intro hmem
    refine ⟨h.1, fun c hc => (h.2 c hc).resolve_right ?_⟩
    intro heq
    exact hmem (heq ▸ hc)

theorem IsOldName.isVariableName (h : IsOldName name) : IsVariableName name :=
  ⟨h.1, fun c hc => .inl (h.2 c hc)⟩

theorem IsVariableName.not_mem {c : Char} (h : IsVariableName name)
    (hc : c.isAlphanum = false ∧ c ≠ '_') : c ∉ name := by
  intro hmem
  rcases h.2 c hmem with hletter | hunderscore
  · rw [hc.1] at hletter
    exact Bool.false_ne_true hletter
  · exact hc.2 hunderscore

/-- A name ends at the first brace. -/
theorem eq_of_append_brace (hname : IsVariableName name) (hname' : IsVariableName name')
    (h : name' ++ '\x7d' :: behind' = name ++ '\x7d' :: behind) : name' = name := by
  have hread : ∀ {name : List Char}, IsVariableName name → ∀ behind : List Char,
      (name ++ '\x7d' :: behind).takeWhile (· ≠ '\x7d') = name := by
    intro name hname behind
    have hrun : ∀ c ∈ name, decide (c ≠ '\x7d') = true := by
      intro c hc
      rw [decide_eq_true_iff]
      intro heq
      exact hname.not_mem (by decide) (heq ▸ hc)
    rw [List.takeWhile_append_of_pos hrun]
    simp
  rw [← hread hname' behind', h, hread hname behind]

/-- A place ends with its brace, and another one that begins with it has the same name. -/
theorem eq_of_oldPlace_append (hname : IsVariableName name) (hname' : IsVariableName name')
    (h : oldPlace name' ++ behind' = oldPlace name ++ behind) : name' = name := by
  have hbrace : name' ++ '\x7d' :: behind' = name ++ '\x7d' :: behind := by
    simpa [oldPlace] using h
  exact eq_of_append_brace hname hname' hbrace

/-- The only place of a text is the only one that is found in it. -/
theorem eq_of_oldPlace_infix (hbefore : '$' ∉ before) (hname : IsVariableName name)
    (hbehind : '$' ∉ behind) (hname' : IsVariableName name')
    (h : oldPlace name' <:+: before ++ oldPlace name ++ behind) : name' = name := by
  obtain ⟨front, back, heq⟩ := h
  have hrest : '$' ∉ '\x7b' :: (name ++ ['\x7d']) ++ behind := by
    simp [hname.not_mem (c := '$') (by decide), hbehind]
  have hsplit : before ++ '$' :: ('\x7b' :: (name ++ ['\x7d']) ++ behind) =
      front ++ '$' :: ('\x7b' :: (name' ++ ['\x7d']) ++ back) := by
    simpa [oldPlace] using heq.symm
  obtain ⟨-, -, htail⟩ := (List.append_cons_inj_of_notMem hbefore hrest).1 hsplit
  exact eq_of_oldPlace_append hname hname' (congrArg ('$' :: ·) htail.symm)

end Template

namespace Config

open Template Text

/-! ## The pattern for places -/

/-- The pattern for places in the older way. -/
def oldPlaces : Pattern :=
  .sign '$' rfl (.sign '\x7b' rfl (.group (.letters .nothing) (.sign '\x7d' rfl .nothing)))

theorem text_oldPlaces : oldPlaces.text = oldPlacePattern := by decide

/-- The pattern matches a dollar sign and a name of letters and digits in braces. -/
theorem matches_oldPlaces_iff {part : List Char} :
    oldPlaces.Matches part ↔ ∃ name, IsOldName name ∧ part = oldPlace name := by
  constructor
  · intro h
    cases h with
    | sign h =>
        cases h with
        | sign h =>
            cases h with
            | group hname hbrace =>
                cases hname with
                | letters hne hrun hnothing =>
                    cases hnothing
                    cases hbrace with
                    | sign hnothing =>
                        cases hnothing
                        exact ⟨_, ⟨hne, hrun⟩, by rw [List.append_nil, oldPlace]⟩
  · intro h
    obtain ⟨name, hname, rfl⟩ := h
    have hinner : (Pattern.letters .nothing).Matches (name ++ []) :=
      .letters hname.1 hname.2 .nothing
    rw [List.append_nil] at hinner
    exact .sign (.sign (.group hinner (.sign .nothing)))

variable {α : Type} {libraries : Libraries} {decode : Toml.Value → Except String α}
  {env : Environment} {path text : String}

/-- The test for places finds each of them wherever it stands. -/
theorem exists_oldPlaces_test (hpattern : FindsPatterns libraries.pattern) :
    ∃ test, libraries.pattern oldPlacePattern = .ok test ∧ ∀ text : String, test text = true ↔
      ∃ name, IsOldName name ∧ oldPlace name <:+: text.toList := by
  obtain ⟨test, hcompile, htest⟩ := hpattern oldPlaces (by decide)
  rw [text_oldPlaces] at hcompile
  refine ⟨test, hcompile, fun text => ?_⟩
  rw [htest]
  simp only [matches_oldPlaces_iff]
  constructor
  · intro h
    obtain ⟨-, ⟨name, hname, rfl⟩, hin⟩ := h
    exact ⟨name, hname, hin⟩
  · intro h
    obtain ⟨name, hname, hin⟩ := h
    exact ⟨_, ⟨name, hname, rfl⟩, hin⟩

theorem refuseOldPlaces_eq_oldPlace_iff (hpattern : FindsPatterns libraries.pattern) :
    refuseOldPlaces libraries text = .error .oldPlace ↔
      ∃ name, IsOldName name ∧ oldPlace name <:+: text.toList := by
  obtain ⟨test, hcompile, htest⟩ := exists_oldPlaces_test hpattern
  rw [← htest]
  simp only [refuseOldPlaces, hcompile]
  split
  · exact iff_of_true rfl ‹_›
  · exact iff_of_false (fun h => by cases h) ‹_›

/-- A text without dollar signs is not refused. -/
theorem refuseOldPlaces_of_not_mem (hpattern : FindsPatterns libraries.pattern)
    (h : '$' ∉ text.toList) : refuseOldPlaces libraries text = .ok () := by
  obtain ⟨test, hcompile, htest⟩ := exists_oldPlaces_test hpattern
  have hnone : ¬ test text = true := by
    rw [htest]
    intro hplace
    obtain ⟨name, -, hin⟩ := hplace
    exact h (hin.subset List.mem_cons_self)
  simp only [refuseOldPlaces, hcompile, if_neg hnone]

/-! ## The steps behind -/

theorem fill_ne_oldPlace : fill libraries env path text ≠ .error .oldPlace := by
  rw [fill]
  split
  · exact fun h => by cases h
  · rename_i render _
    cases render [("env", env)] with
    | error failure => exact fun h => by cases h
    | ok filled => exact fun h => by cases h

theorem interpret_ne_oldPlace : interpret libraries decode path text ≠ .error .oldPlace := by
  rw [interpret]
  split
  · exact fun h => by cases h
  · rename_i value _
    cases decode value with
    | error reason => exact fun h => by cases h
    | ok settings => exact fun h => by cases h

/-- A text is refused for its marks by the first step only: the template, the document and its
values are refused for other reasons. -/
theorem parse_eq_oldPlace_iff : parse libraries decode env path text = .error .oldPlace ↔
    refuseOldPlaces libraries text = .error .oldPlace := by
  rw [parse]
  cases refuseOldPlaces libraries text with
  | error reason =>
      show Except.error reason = Except.error _ ↔ _
      rw [Except.error.injEq, Except.error.injEq]
  | ok =>
      refine iff_of_false ?_ (fun h => by cases h)
      show (fill libraries env path text).bind (interpret libraries decode path) ≠ _
      cases hfill : fill libraries env path text with
      | error reason =>
          intro h
          obtain rfl : reason = .oldPlace := Except.error.inj h
          exact fill_ne_oldPlace hfill
      | ok filled => exact interpret_ne_oldPlace

/-- The older way of marking places, with any library that finds patterns. A text is refused for it
exactly if it has somewhere a place whose name is made of letters and digits, whatever else is in
the text. So a text in which no dollar sign has a brace behind it is never refused for it. A text
with a single dollar sign, which marks a place for a value of the environment, is refused exactly if
the name of the value has no underscore. -/
theorem old_places_refused (libraries : Libraries) (hpattern : FindsPatterns libraries.pattern)
    (decode : Toml.Value → Except String α) (env : Environment) (path : String) :
    (∀ text : String, parse libraries decode env path text = .error .oldPlace ↔
      ∃ name, IsOldName name ∧ oldPlace name <:+: text.toList) ∧
    (∀ text : String, ¬ ['$', '\x7b'] <:+: text.toList →
      parse libraries decode env path text ≠ .error .oldPlace) ∧
    ∀ before name behind : List Char, '$' ∉ before → IsVariableName name → '$' ∉ behind →
      (parse libraries decode env path (String.ofList (before ++ oldPlace name ++ behind)) =
        .error .oldPlace ↔ '_' ∉ name) := by
  have hrefused (text : String) : parse libraries decode env path text = .error .oldPlace ↔
      ∃ name, IsOldName name ∧ oldPlace name <:+: text.toList :=
    parse_eq_oldPlace_iff.trans (refuseOldPlaces_eq_oldPlace_iff hpattern)
  refine ⟨hrefused, fun text hmark hplace => ?_, fun before name behind hbefore hname hbehind => ?_⟩
  · obtain ⟨name, -, hin⟩ := (hrefused text).1 hplace
    exact hmark ((List.prefix_append ['$', '\x7b'] (name ++ ['\x7d'])).isInfix.trans hin)
  · rw [hrefused, String.toList_ofList, ← isOldName_iff hname]
    constructor
    · intro h
      obtain ⟨name', hold, hin⟩ := h
      exact eq_of_oldPlace_infix hbefore hname hbehind hold.isVariableName hin ▸ hold
    · intro hold
      exact ⟨name, hold, List.infix_append before _ _⟩

/-- A place is recognized behind two braces that begin nothing, and without the brace of its own the
same text is refused as a template only. A place with an underscore passes. -/
theorem old_places_refused_inBraces :
    let own := Libraries.own
    let decode := own.decode Settings.kind
    let braces := ['\x7b', '\x7b']
    let marked := String.ofList (braces ++ oldPlace ['A', '7'] ++ ['"'])
    let unmarked := String.ofList (braces ++ ['$', 'A', '7', '\x7d'])
    FindsPatterns own.pattern ∧
      parse own decode [] "settings.toml" marked = .error .oldPlace ∧
      ¬ ['$', '\x7b'] <:+: unmarked.toList ∧
      parse own decode [] "settings.toml" unmarked ≠ .error .oldPlace ∧
      ('$' ∉ braces ∧ IsVariableName ['A', '_', '7'] ∧ '$' ∉ ['"']) ∧
      parse own decode [] "settings.toml"
        (String.ofList (braces ++ oldPlace ['A', '_', '7'] ++ ['"'])) ≠ .error .oldPlace := by
  intro own decode braces marked unmarked
  obtain ⟨hplace, hmark, hname⟩ :=
    old_places_refused own Pattern.findsPatterns_compile decode [] "settings.toml"
  have hold : IsOldName ['A', '7'] := by simp [IsOldName]
  have hin : oldPlace ['A', '7'] <:+: marked.toList := by
    rw [String.toList_ofList]
    exact List.infix_append braces _ _
  have hunmarked : ¬ ['$', '\x7b'] <:+: unmarked.toList := by
    rw [String.toList_ofList]
    decide
  have hvariable : IsVariableName ['A', '_', '7'] := by simp [IsVariableName]
  exact ⟨Pattern.findsPatterns_compile, (hplace marked).2 ⟨_, hold, hin⟩, hunmarked,
    hmark unmarked hunmarked, ⟨by decide, hvariable, by decide⟩,
    mt (hname braces _ _ (by decide) hvariable (by decide)).1 (by decide)⟩

/-- A place for a value whose name has an underscore is not recognized. -/
theorem not_forall_old_places_refused :
    ¬ ∀ libraries : Libraries, FindsPatterns libraries.pattern →
      ∀ (env : Environment) (path text : String) (name : List Char), IsVariableName name →
        oldPlace name <:+: text.toList →
          parse libraries (libraries.decode Settings.kind) env path text = .error .oldPlace := by
  intro h
  have hvariable : IsVariableName ['A', '_', '7'] := by simp [IsVariableName]
  have hrefused := h .own Pattern.findsPatterns_compile [] "settings.toml"
    (String.ofList (oldPlace ['A', '_', '7'])) _ hvariable (by rw [String.toList_ofList])
  obtain ⟨name, hold, hin⟩ :=
    (refuseOldPlaces_eq_oldPlace_iff Pattern.findsPatterns_compile).1
      (parse_eq_oldPlace_iff.1 hrefused)
  have hin : oldPlace name <:+: [] ++ oldPlace ['A', '_', '7'] ++ [] := by simpa using hin
  have hsame : name = ['A', '_', '7'] :=
    eq_of_oldPlace_infix List.not_mem_nil hvariable List.not_mem_nil hold.isVariableName hin
  exact absurd (hold.2 '_' (by simp [hsame])) (by decide)

end Config

end TilePyramid
