import Mathlib
import TilePyramid.Config.Setup
import TilePyramid.Proofs.OldPlaces
import TilePyramid.Proofs.Readers

/-!
# Objects read back from their settings

A scheme and the options of a path can be written as settings. Both texts together are plain
sections without places for values of the environment, so any libraries that do what is expected of
them read these sections: as a table, as the settings in it, and back as the scheme and the options.
-/

namespace TilePyramid

open Toml

/-! ## Texts without places -/

/-- A text without braces has no delimiters. -/
theorem Template.isPlain_of_not_mem {cs : List Char} (hopen : '\x7b' ∉ cs) (hclose : '\x7d' ∉ cs) :
    IsPlain cs := by
  intro delimiter hdelimiter hin
  have hbrace : ∀ delimiter ∈ delimiters, '\x7b' ∈ delimiter ∨ '\x7d' ∈ delimiter := by decide
  rcases hbrace delimiter hdelimiter with hmem | hmem
  · exact hopen (hin.subset hmem)
  · exact hclose (hin.subset hmem)

namespace Config

variable {α : Type} {libraries : Libraries} {decode : Value → Except String α}
  {env : Template.Environment} {path : String}

/-- A text without delimiters fills in its own template. -/
theorem fill_plain {text : String} (htemplate : KeepsPlainText libraries.template)
    (h : Template.IsPlain text.toList) : fill libraries env path text = .ok text := by
  obtain ⟨render, hcompile, hrender⟩ := htemplate path text h
  simp only [fill, hcompile, hrender]
  rfl

/-- Plain sections without places are read as what their tables are decoded to. -/
theorem parse_sections (hpattern : FindsPatterns libraries.pattern)
    (htemplate : KeepsPlainText libraries.template) (hdocument : ReadsSections libraries.document)
    {sections : List Section} (h : ∀ s ∈ sections, s.IsPlain)
    (hnodup : (sections.map Section.key).Nodup) (hdollar : '$' ∉ sections.flatMap Section.chars)
    (hplain : Template.IsPlain (sections.flatMap Section.chars)) :
    parse libraries decode env path (String.ofList (sections.flatMap Section.chars)) =
      (decode (.table (Table.ofList
        (sections.map fun s => (s.key, nest s.keys s.table))))).mapError (.mismatch path) := by
  rw [parse, refuseOldPlaces_of_not_mem hpattern (by rwa [String.toList_ofList])]
  show (fill libraries env path _).bind (interpret libraries decode path) = _
  rw [fill_plain htemplate (by rwa [String.toList_ofList])]
  show interpret libraries decode path _ = _
  rw [interpret, hdocument sections h hnodup]

end Config

/-! ## Names -/

namespace Text

/-- No capital that has a small form is between the last one of ASCII and the first one behind. -/
theorem capitals_apart :
    ∀ range ∈ capitals, range.last ≤ 'Z'.toNat ∨ '\u00C0'.toNat ≤ range.first := by
  decide +kernel

theorem lowerChar_eq_self {c : Char} (h : 'Z'.toNat < c.toNat ∧ c.toNat < '\u00C0'.toNat) :
    lowerChar c = c := by
  have hnone : capitals.find? (·.holds c.toNat) = none := by
    rw [List.find?_eq_none]
    intro range hrange
    have hapart := capitals_apart range hrange
    simp only [CaseRange.holds, Bool.and_eq_true, decide_eq_true_iff]
    omega
  rw [lowerChar, hnone]

theorem lowerFrom_eq_self {cs : List Char}
    (h : ∀ c ∈ cs, 'Z'.toNat < c.toNat ∧ c.toNat < '\u00C0'.toNat) (before : List Char) :
    lowerFrom before cs = cs := by
  induction cs generalizing before with
  | nil => rfl
  | cons c cs ih =>
      obtain ⟨hc, hcs⟩ := List.forall_mem_cons.1 h
      have hdot : c ≠ '\u0130' := by
        intro heq
        exact absurd hc.2 (heq ▸ by decide)
      have hsigma : c ≠ '\u03A3' := by
        intro heq
        exact absurd hc.2 (heq ▸ by decide)
      rw [lowerFrom, lowerBetween, if_neg hdot, if_neg hsigma, lowerChar_eq_self hc, ih hcs]
      rfl

/-- The text is made of small letters of ASCII and of underscores. -/
def IsName (text : String) : Prop := ∀ c ∈ text.toList, c.isLower = true ∨ c = '_'

namespace IsName

variable {text : String} (h : IsName text)

include h

theorem bounds {c : Char} (hc : c ∈ text.toList) : '_'.toNat ≤ c.toNat ∧ c.toNat ≤ 'z'.toNat := by
  rcases h c hc with hlower | rfl
  · have hrange : 'a'.toNat ≤ c.toNat ∧ c.toNat ≤ 'z'.toNat := by
      simpa [Char.isLower, UInt32.le_iff_toNat_le] using hlower
    exact ⟨Nat.le_trans (by decide) hrange.1, hrange.2⟩
  · decide

/-- A name is in lower case. -/
theorem lowercase_eq_self : lowercase text = text := by
  have hcapitals : ∀ c ∈ text.toList, 'Z'.toNat < c.toNat ∧ c.toNat < '\u00C0'.toNat := by
    intro c hc
    obtain ⟨hlow, hhigh⟩ := h.bounds hc
    exact ⟨Nat.lt_of_lt_of_le (by decide) hlow, Nat.lt_of_le_of_lt hhigh (by decide)⟩
  rw [lowercase, lowerFrom_eq_self hcapitals, String.ofList_toList]

theorem not_mem {d : Char} (hd : d.toNat < '_'.toNat ∨ 'z'.toNat < d.toNat) :
    d ∉ text.toList := by
  intro hmem
  have hbounds := h.bounds hmem
  omega

/-- A name stands for itself in double quotes. -/
theorem isUnescaped : IsUnescaped text.toList := by
  intro c hc
  obtain ⟨hlow, -⟩ := h.bounds hc
  refine ⟨Nat.le_trans (by decide) hlow, ?_, ?_, ?_⟩
  · exact fun heq => h.not_mem (by decide) (heq ▸ hc)
  · exact fun heq => h.not_mem (by decide) (heq ▸ hc)
  · exact fun heq => h.not_mem (by decide) (heq ▸ hc)

end IsName

end Text

namespace Subdivision

variable {subdivision : Subdivision} (h : subdivision ∈ all)

include h

theorem eq_of_mem_all : subdivision = quadTree ∨ subdivision = halfQuadTree := by
  simpa [all] using h

theorem isName_name : Text.IsName subdivision.name := by
  cases eq_of_mem_all h with
  | inl heq => simp [heq, Text.IsName, quadTree]
  | inr heq => simp [heq, Text.IsName, halfQuadTree]

/-- A subdivision is found by its name. -/
theorem ofAnyCase_name : ofAnyCase subdivision.name = .ok subdivision := by
  rw [ofAnyCase, (isName_name h).lowercase_eq_self]
  cases eq_of_mem_all h with
  | inl heq => simp [heq, ofName?, all, quadTree]
  | inr heq => simp [heq, ofName?, all, quadTree, halfQuadTree]

end Subdivision

namespace Projection

theorem isName_name (projection : Projection) : Text.IsName projection.name := by
  cases projection with
  | equirectangular => simp [Text.IsName, name]
  | sphere => simp [Text.IsName, name]
  | identity => simp [Text.IsName, name]

/-- A projection is found by its name. -/
theorem ofName_name (projection : Projection) :
    ofName (Text.lowercase projection.name) = .ok projection := by
  rw [projection.isName_name.lowercase_eq_self]
  cases projection <;> rfl

end Projection

/-! ## The settings -/

/-- The character is part of a mark for places. -/
def IsMark (c : Char) : Prop := c = '$' ∨ c = '\x7b' ∨ c = '\x7d'

section
variable {c : Char} (h : IsMark c)

include h

theorem IsMark.not_name : c.toNat < '_'.toNat ∨ 'z'.toNat < c.toNat := by
  rcases h with rfl | rfl | rfl <;> decide

theorem IsMark.isDigit_eq_false : c.isDigit = false := by
  rcases h with rfl | rfl | rfl <;> decide

/-- A mark is in a plain section only if it is in a literal. -/
theorem IsMark.not_mem_chars {s : Section} (hs : s.IsPlain)
    (hliterals : ∀ entry ∈ s.entries, c ∉ entry.2.chars) : c ∉ s.chars := by
  refine Section.not_mem_chars hs ?_ ?_ hliterals
  · rcases h with rfl | rfl | rfl <;> decide
  · rcases h with rfl | rfl | rfl <;> decide

end

namespace Scheme

variable {scheme : Scheme}

/-- The settings of a scheme. -/
def currentSettings (scheme : Scheme) : SchemeSettings :=
  ⟨none, some ⟨scheme.subdivision.name, scheme.projection.name⟩⟩

/-- The settings of a scheme as a section. -/
def currentSection (scheme : Scheme) : Section where
  key := "tiling"
  keys := ["user"]
  entries :=
    [("subdivision", .text scheme.subdivision.name), ("projection", .text scheme.projection.name)]

theorem toList_currentText (scheme : Scheme) :
    scheme.currentText.toList = scheme.currentSection.chars := by
  unfold currentText
  rw [Section.chars, currentSection]
  simp [Section.entryChars, Literal.chars, dotted]

theorem isPlain_currentSection (h : scheme.subdivision ∈ Subdivision.all) :
    scheme.currentSection.IsPlain where
  key := by simp [currentSection, IsWord, isWordChar]
  keys := by simp [currentSection, IsWord, isWordChar]
  names := by simp [currentSection, IsWord, isWordChar]
  nodup := by simp [currentSection]
  literals := List.forall_mem_cons.2 ⟨(Subdivision.isName_name h).isUnescaped,
    List.forall_mem_singleton.2 scheme.projection.isName_name.isUnescaped⟩

theorem not_mem_currentSection (h : scheme.subdivision ∈ Subdivision.all) {c : Char}
    (hc : IsMark c) : c ∉ scheme.currentSection.chars := by
  have hsubdivision := (Subdivision.isName_name h).not_mem hc.not_name
  have hprojection := scheme.projection.isName_name.not_mem hc.not_name
  have hquote : c ≠ '"' := by rcases hc with rfl | rfl | rfl <;> decide
  refine hc.not_mem_chars (isPlain_currentSection h) ?_
  simp [currentSection, Literal.chars, hquote, hsubdivision, hprojection]

/-- A scheme is made from its settings. -/
theorem ofSettings_current (h : scheme.subdivision ∈ Subdivision.all) :
    ofSettings scheme.currentSettings = .ok scheme := by
  show ofParts ⟨scheme.subdivision.name, scheme.projection.name⟩ = .ok scheme
  rw [ofParts, Subdivision.ofAnyCase_name h, Projection.ofName_name]
  rfl

end Scheme

namespace PathOptions

variable {options : PathOptions}

/-- The settings of a path. -/
def currentSettings (options : PathOptions) : PathSettings := ⟨options.level, options.width⟩

/-- The settings of a path as a section. -/
def currentSection (options : PathOptions) : Section where
  key := "path"
  keys := []
  entries := [("level", .number options.level), ("area_offset", .number options.width)]

theorem toList_currentText (options : PathOptions) :
    options.currentText.toList = options.currentSection.chars := by
  unfold currentText
  rw [Section.chars, currentSection]
  simp [Section.entryChars, Literal.chars, dotted]

theorem isPlain_currentSection (hlevel : options.level < 2 ^ 63) (hwidth : options.width < 2 ^ 63) :
    options.currentSection.IsPlain where
  key := by simp [currentSection, IsWord, isWordChar]
  keys := by simp [currentSection]
  names := by simp [currentSection, IsWord, isWordChar]
  nodup := by simp [currentSection]
  literals := List.forall_mem_cons.2 ⟨hlevel, List.forall_mem_singleton.2 hwidth⟩

theorem not_mem_currentSection (hlevel : options.level < 2 ^ 63) (hwidth : options.width < 2 ^ 63)
    {c : Char} (hc : IsMark c) : c ∉ options.currentSection.chars := by
  have hlevel' := (isNumber_toDigits options.level).not_mem hc.isDigit_eq_false
  have hwidth' := (isNumber_toDigits options.width).not_mem hc.isDigit_eq_false
  refine hc.not_mem_chars (isPlain_currentSection hlevel hwidth) ?_
  simp [currentSection, Literal.chars, hlevel', hwidth']

end PathOptions

namespace Config

/-- The settings of a scheme and of a path as sections. -/
def currentSections (scheme : Scheme) (options : PathOptions) : List Section :=
  [scheme.currentSection, options.currentSection]

/-- The table of the settings of a scheme and of a path. -/
theorem ofList_currentSections (scheme : Scheme) (options : PathOptions) :
    Table.ofList ((currentSections scheme options).map fun s => (s.key, nest s.keys s.table)) =
      [("path",
          .table [("area_offset", .integer options.width), ("level", .integer options.level)]),
        ("tiling", .table [("user", .table [("projection", .string scheme.projection.name),
          ("subdivision", .string scheme.subdivision.name)])])] := by
  rw [currentSections, Scheme.currentSection, PathOptions.currentSection]
  simp [Section.table, nest, Literal.value, Table.ofList, Table.insert, Table.precedes]

theorem decode_current {libraries : Libraries} (hdecode : DecodesRecords libraries.decode)
    (scheme : Scheme) {options : PathOptions} (hlevel : options.level < 2 ^ 32)
    (hwidth : options.width < 2 ^ 32) :
    libraries.decode Settings.kind (.table
      (Table.ofList ((currentSections scheme options).map fun s =>
        (s.key, nest s.keys s.table)))) =
      .ok ⟨scheme.currentSettings, some options.currentSettings⟩ := by
  rw [ofList_currentSections]
  have hparts : libraries.decode PartNames.kind
      (.table [("projection", .string scheme.projection.name),
        ("subdivision", .string scheme.subdivision.name)]) =
      .ok ⟨scheme.subdivision.name, scheme.projection.name⟩ :=
    hdecode.record _ (by decide) (by simp)
      (.found (.found (.make _) rfl (hdecode.text _)) rfl (hdecode.text _))
  have hscheme : libraries.decode SchemeSettings.kind
      (.table [("user", .table [("projection", .string scheme.projection.name),
        ("subdivision", .string scheme.subdivision.name)])]) = .ok scheme.currentSettings :=
    hdecode.record _ (by decide) (by simp)
      (.found (.leftOut (.make _) rfl rfl) rfl (hdecode.optional hparts))
  have hpath : libraries.decode PathSettings.kind
      (.table [("area_offset", .integer options.width), ("level", .integer options.level)]) =
      .ok options.currentSettings :=
    hdecode.record _ (by decide) (by simp)
      (.found (.found (.make _) rfl (hdecode.word hlevel)) rfl (hdecode.word hwidth))
  exact hdecode.record _ (by decide) (by simp)
    (.found (.found (.make _) rfl hscheme) rfl (hdecode.optional hpath))

theorem parse_current {libraries : Libraries} (hpattern : FindsPatterns libraries.pattern)
    (htemplate : KeepsPlainText libraries.template) (hdocument : ReadsSections libraries.document)
    (hdecode : DecodesRecords libraries.decode) (env : Template.Environment) (path : String)
    {scheme : Scheme} {options : PathOptions} (hscheme : scheme.subdivision ∈ Subdivision.all)
    (hlevel : options.level < 2 ^ 32) (hwidth : options.width < 2 ^ 32) :
    parse libraries (libraries.decode Settings.kind) env path
        (scheme.currentText ++ options.currentText) =
      .ok ⟨scheme.currentSettings, some options.currentSettings⟩ := by
  have htext : scheme.currentText ++ options.currentText =
      String.ofList ((currentSections scheme options).flatMap Section.chars) := by
    rw [← String.toList_inj, String.toList_ofList, String.toList_append, scheme.toList_currentText,
      options.toList_currentText]
    simp [currentSections]
  have hlevel' : options.level < 2 ^ 63 := by omega
  have hwidth' : options.width < 2 ^ 63 := by omega
  have hplain : ∀ s ∈ currentSections scheme options, s.IsPlain :=
    List.forall_mem_cons.2 ⟨Scheme.isPlain_currentSection hscheme,
      List.forall_mem_singleton.2 (PathOptions.isPlain_currentSection hlevel' hwidth')⟩
  have hmark {c : Char} (hc : IsMark c) :
      c ∉ (currentSections scheme options).flatMap Section.chars := by
    simp [currentSections, Scheme.not_mem_currentSection hscheme hc,
      PathOptions.not_mem_currentSection hlevel' hwidth' hc]
  have hkeys : ((currentSections scheme options).map Section.key).Nodup := by
    simp [currentSections, Scheme.currentSection, PathOptions.currentSection]
  have hdelimiters : Template.IsPlain ((currentSections scheme options).flatMap Section.chars) :=
    Template.isPlain_of_not_mem (hmark (.inr (.inl rfl))) (hmark (.inr (.inr rfl)))
  rw [htext, parse_sections hpattern htemplate hdocument hplain hkeys (hmark (.inl rfl))
    hdelimiters, decode_current hdecode scheme hlevel hwidth]
  rfl

/-- A scheme whose subdivision can be named and the options of a path are written as settings in one
text. Whatever the environment, libraries that do what is expected of them read the text, its
settings make the same scheme, and they make the same options if the level is one that can be
addressed. Settings with any other level make no options. -/
theorem current_reads_back (libraries : Libraries) (hpattern : FindsPatterns libraries.pattern)
    (htemplate : KeepsPlainText libraries.template) (hdocument : ReadsSections libraries.document)
    (hdecode : DecodesRecords libraries.decode) (env : Template.Environment) (path : String)
    {scheme : Scheme} {options : PathOptions} (hscheme : scheme.subdivision ∈ Subdivision.all)
    (hlevel : options.level < 2 ^ 32) (hwidth : options.width < 2 ^ 32) :
    (∃ settings pathSettings,
      parse libraries (libraries.decode Settings.kind) env path
        (scheme.currentText ++ options.currentText) = .ok settings ∧
      Scheme.ofSettings settings.tiling = .ok scheme ∧
      settings.path = some pathSettings ∧
      PathOptions.ofSettings pathSettings =
        if options.level < levelCount then .ok options
        else .error (.levelTooDeep options.level)) ∧
    ∀ deep : PathSettings, levelCount ≤ deep.level →
      PathOptions.ofSettings deep = .error (.levelTooDeep deep.level) := by
  refine ⟨⟨⟨scheme.currentSettings, some options.currentSettings⟩, options.currentSettings, ?_⟩,
    fun deep hdeep => if_neg (Nat.not_lt.2 hdeep)⟩
  exact ⟨parse_current hpattern htemplate hdocument hdecode env path hscheme hlevel hwidth,
    Scheme.ofSettings_current hscheme, rfl, rfl⟩

/-- The deepest level and the largest width are read back, and the next level is refused. -/
theorem current_reads_back_deepest :
    let own := Libraries.own
    let scheme : Scheme := ⟨.halfQuadTree, .sphere⟩
    let options : PathOptions := ⟨maxLevel, 2 ^ 32 - 1⟩
    (FindsPatterns own.pattern ∧ KeepsPlainText own.template ∧ ReadsSections own.document ∧
      DecodesRecords own.decode) ∧
      (scheme.subdivision ∈ Subdivision.all ∧ options.level < 2 ^ 32 ∧ options.width < 2 ^ 32) ∧
      (∃ settings pathSettings,
        parse own (own.decode Settings.kind) [] "settings.toml"
          (scheme.currentText ++ options.currentText) = .ok settings ∧
        Scheme.ofSettings settings.tiling = .ok scheme ∧
        settings.path = some pathSettings ∧
        PathOptions.ofSettings pathSettings = .ok options) ∧
      PathOptions.ofSettings ⟨maxLevel + 1, 0⟩ = .error (.levelTooDeep 32) := by
  intro own scheme options
  have hscheme : scheme.subdivision ∈ Subdivision.all := by simp [scheme, Subdivision.all]
  obtain ⟨hread, hdeep⟩ := @current_reads_back own Text.Pattern.findsPatterns_compile
    Template.keepsPlainText_compile readsSections_read decodesRecords_own [] "settings.toml" scheme
    options hscheme (by decide) (by decide)
  exact ⟨⟨Text.Pattern.findsPatterns_compile, Template.keepsPlainText_compile, readsSections_read,
      decodesRecords_own⟩,
    ⟨hscheme, by decide, by decide⟩, hread, hdeep ⟨32, 0⟩ (Nat.le_refl 32)⟩

end Config

end TilePyramid
