import SyntaxForest.Proofs.TomlDocument
import SyntaxForest.Settings.Document
import SyntaxForest.StyleSheet

/-! Settings that are written and read again.  What is read never has a category by
the name of the output's section, and settings without one are read back as they
were.  The texts of documents are left to a format that reads back what it writes. -/

namespace SyntaxForest

open Toml (Value Scalar Section)

/-! ## Sections -/

/-- A size of 32 bits is read back from the number it is written as. -/
theorem Toml.Value.size?_toNat (n : UInt32) : Value.size? (.integer n.toNat) = some n := by
  have hpow : Int.pow 2 32 = 4294967296 := by decide
  have hlt := n.toNat_lt
  rw [Value.size?, if_pos (by omega)]
  simp

theorem Toml.Value.readOr_some {α : Type} (read : Value → Option α) (default : α) (value : Value) :
    Value.readOr read default (some value) = read value := rfl

/-- The settings of the output are read back from their entries. -/
theorem OutputSettings.ofToml?_entries (output : OutputSettings) :
    OutputSettings.ofToml?
      (.table (output.entries.map fun entry => (entry.1, entry.2.toValue))) = some output := by
  have hfields : OutputSettings.ofToml?
      (.table (output.entries.map fun entry => (entry.1, entry.2.toValue))) =
      ofValues? (some (.boolean output.detailed)) (some (.boolean output.includeExpressions))
        (some (.boolean output.fillNodes)) (some (.integer output.width.toNat))
        (some (.integer output.height.toNat)) (some (.integer output.nodeWidth.toNat))
        (some (.integer output.nodeHeight.toNat)) := by
    simp [entries, ofToml?, Scalar.toValue, NameMap.lookup_cons]
  -- The fields are taken one by one: `simp` has the kernel work out the bounds of a size.
  rw [hfields, ofValues?]
  dsimp only
  rw [Value.readOr_some, Value.readOr_some, Value.readOr_some, Value.readOr_some,
    Value.readOr_some, Value.readOr_some, Value.readOr_some, Value.size?_toNat,
    Value.size?_toNat, Value.size?_toNat, Value.size?_toNat]
  rfl

/-- The settings of a category are read back from their entries: a text that is left out
is read as none. -/
theorem CategorySettings.ofEntries?_entries (given : CategorySettings) :
    CategorySettings.ofEntries? (given.entries.map fun entry => (entry.1, entry.2.toValue)) =
      some given := by
  obtain ⟨visit, shape, color⟩ := given
  cases shape <;> cases color <;>
    simp [entries, ofEntries?, Scalar.toValue, NameMap.lookup_cons, Value.readOr, Value.flag?,
      Value.text?]

theorem OutputSettings.readable (name : String) (output : OutputSettings) :
    (⟨name, output.entries⟩ : Section).Readable where
  increasing := by
    simp only [entries, List.map_cons, List.map_nil]
    decide
  fits := by
    have hsize (n : UInt32) : (Scalar.number n.toNat).Fits := by
      have hpow : Int.pow 2 63 = 9223372036854775808 := by decide
      have hlt := n.toNat_lt
      rw [Scalar.Fits, hpow]
      omega
    intro entry hentry
    simp only [entries, List.mem_cons, List.not_mem_nil, or_false] at hentry
    rcases hentry with rfl | rfl | rfl | rfl | rfl | rfl | rfl
    · trivial
    · trivial
    · exact hsize _
    · trivial
    · exact hsize _
    · exact hsize _
    · exact hsize _
  plain := by
    simp [entries, Toml.dateTimeKey]

theorem CategorySettings.readable (name : String) (given : CategorySettings) :
    (⟨name, given.entries⟩ : Section).Readable := by
  obtain ⟨visit, shape, color⟩ := given
  constructor
  case increasing =>
    have hkeys : ["color", "shape", "visit"].Pairwise (· < ·) := by decide
    refine hkeys.sublist ?_
    cases shape <;> cases color <;> simp [entries]
  all_goals cases shape <;> cases color <;> simp [entries, Toml.dateTimeKey, Scalar.Fits]

namespace Settings

/-! ## What is written -/

/-- A category has the entries of its settings. -/
theorem lookup_map_entries (entries : List (String × CategorySettings)) (name : String) :
    (entries.map fun entry => (entry.1, entry.2.entries)).lookup name =
      (entries.lookup name).map CategorySettings.entries := by
  induction entries with
  | nil => rfl
  | cons entry entries ih =>
    rw [List.map_cons, NameMap.lookup_cons, NameMap.lookup_cons, ih]
    split <;> rfl

/-- There is a section for each category, and one for the output unless a category
has its name. -/
theorem mem_sections_iff {settings : Settings} {given : Section} :
    given ∈ settings.sections ↔
      (∃ category, settings.categories.get? given.name = some category ∧
        given.entries = category.entries) ∨
      given.name = "output" ∧ settings.categories.get? "output" = none ∧
        given.entries = settings.output.entries := by
  obtain ⟨name, entries⟩ := given
  have hnodup : ((settings.categories.entries.map fun entry =>
      (entry.1, entry.2.entries)).map Prod.fst).Nodup := by
    simpa [Function.comp_def] using settings.categories.nodup_names
  have hmem : ⟨name, entries⟩ ∈ settings.sections ↔
      (NameMap.ofList (("output", settings.output.entries) ::
        settings.categories.entries.map fun entry => (entry.1, entry.2.entries))).get? name =
      some entries := by
    rw [← NameMap.mem_entries_iff]
    simp [sections]
  rw [hmem, NameMap.ofList, List.foldl_cons, NameMap.get?_foldl_insert hnodup,
    lookup_map_entries, NameMap.get?_insert]
  change (((settings.categories.get? name).map _).or _ = _) ↔ _
  cases hget : settings.categories.get? name with
  | none =>
    by_cases hname : name = "output"
    · subst hname
      simp [hget, eq_comm]
    · simp [hname, NameMap.get?, NameMap.empty]
  | some category =>
    have hother : ¬ (name = "output" ∧ settings.categories.get? "output" = none ∧
        entries = settings.output.entries) := by
      rintro ⟨rfl, hnone, -⟩
      simp [hget] at hnone
    rw [or_iff_left hother]
    simp [eq_comm]

theorem increasing_sections (settings : Settings) :
    (settings.sections.map Section.name).Pairwise (· < ·) := by
  simpa [sections, List.pairwise_map] using NameMap.sorted _

/-- Every section of settings can be read, whatever its name is. -/
theorem readable_of_mem_sections {settings : Settings} {given : Section}
    (h : given ∈ settings.sections) : given.Readable := by
  obtain ⟨name, entries⟩ := given
  obtain ⟨category, -, rfl⟩ | ⟨-, -, rfl⟩ := mem_sections_iff.mp h
  · exact category.readable name
  · exact settings.output.readable name

/-! ## What is read -/

theorem reading?_output (start : Settings) (output : OutputSettings) :
    start.reading? (Section.toValue ⟨"output", output.entries⟩) = some { start with output } := by
  rw [Section.toValue, reading?, OutputSettings.ofToml?_entries]
  rfl

theorem reading?_category (start : Settings) {name : String} (h : name ≠ "output")
    (given : CategorySettings) :
    start.reading? (Section.toValue ⟨name, given.entries⟩) =
      some { start with categories := start.categories.insert name given } := by
  rw [Section.toValue, reading?.eq_2 _ _ _ (by simpa using h), CategorySettings.ofEntries?_entries]
  rfl

/-- No section is read as a category by the name of the output's. -/
theorem get?_output_reading? {start result : Settings} {entry : String × Value}
    (hstart : start.categories.get? "output" = none) (h : start.reading? entry = some result) :
    result.categories.get? "output" = none := by
  revert h
  fun_cases reading? start entry
  case case1 value =>
    intro h
    obtain ⟨output, -, rfl⟩ := Option.map_eq_some_iff.mp h
    exact hstart
  case case2 name entries hname =>
    intro h
    obtain ⟨given, -, rfl⟩ := Option.map_eq_some_iff.mp h
    rw [NameMap.get?_insert, if_neg (Ne.symm hname), hstart]
  case case3 =>
    rintro ⟨⟩
    exact hstart

theorem get?_output_foldlM {entries : List (String × Value)} {start result : Settings}
    (hstart : start.categories.get? "output" = none)
    (h : entries.foldlM reading? start = some result) :
    result.categories.get? "output" = none := by
  induction entries generalizing start with
  | nil =>
    obtain rfl : start = result := by simpa using h
    exact hstart
  | cons entry entries ih =>
    obtain ⟨next, hnext, hrest⟩ := Option.bind_eq_some_iff.mp h
    exact ih (get?_output_reading? hstart hnext) hrest

theorem ofToml_eq_ok_iff {format : Toml.Format} {document : String} {settings : Settings} :
    ofToml format document = .ok settings ↔
      ∃ table, format.read document = .ok table ∧ ofTable? table = some settings := by
  rw [ofToml]
  split
  case h_1 cause hread => simp [hread]
  case h_2 table hread =>
    cases hsettings : ofTable? table <;> simp [hread, hsettings]

/-- Whatever the text and the format are, no category by the name of the output's
section is read. -/
theorem get?_output_of_ofToml {format : Toml.Format} {document : String} {settings : Settings}
    (h : ofToml format document = .ok settings) : settings.categories.get? "output" = none := by
  obtain ⟨table, -, htable⟩ := ofToml_eq_ok_iff.mp h
  exact get?_output_foldlM rfl htable

/-- Reading sections of settings takes over what they say, and keeps the rest. -/
theorem foldlM_reading? {settings : Settings} (houtput : settings.categories.get? "output" = none)
    {sections : List Section} (h : ∀ given ∈ sections, given ∈ settings.sections)
    (start : Settings) :
    ∃ result, (sections.map Section.toValue).foldlM reading? start = some result ∧
      result.output =
        (if "output" ∈ sections.map Section.name then settings.output else start.output) ∧
      ∀ name, result.categories.get? name =
        if name ∈ sections.map Section.name ∧ name ≠ "output" then settings.categories.get? name
        else start.categories.get? name := by
  induction sections generalizing start with
  | nil => exact ⟨start, rfl, rfl, fun name => rfl⟩
  | cons given sections ih =>
    obtain ⟨hgiven, hrest⟩ := List.forall_mem_cons.mp h
    obtain ⟨name, entries⟩ := given
    obtain ⟨category, hcategory, rfl⟩ | ⟨rfl, -, rfl⟩ := mem_sections_iff.mp hgiven
    · have hname : name ≠ "output" := by
        rintro rfl
        simp [houtput] at hcategory
      obtain ⟨result, hrun, hresult, hcategories⟩ :=
        ih hrest { start with categories := start.categories.insert name category }
      refine ⟨result, ?_, ?_, fun other => ?_⟩
      · rw [List.map_cons, List.foldlM_cons, reading?_category start hname]
        exact hrun
      · simp [hresult, Ne.symm hname]
      · rw [hcategories, NameMap.get?_insert]
        by_cases hother : other = name
        · subst hother
          simp [hname, hcategory]
        · simp [hother]
    · obtain ⟨result, hrun, hresult, hcategories⟩ :=
        ih hrest { start with output := settings.output }
      refine ⟨result, ?_, ?_, fun other => ?_⟩
      · rw [List.map_cons, List.foldlM_cons, reading?_output]
        exact hrun
      · simp [hresult]
      · rw [hcategories]
        by_cases hother : other = "output"
        · simp [hother]
        · simp [hother]

/-- Settings are read back from the table of their sections. -/
theorem ofTable?_sections {settings : Settings} (h : settings.categories.get? "output" = none) :
    ofTable? (settings.sections.map Section.toValue) = some settings := by
  obtain ⟨result, hrun, hresult, hcategories⟩ :=
    foldlM_reading? h (fun _ hgiven => hgiven) ({} : Settings)
  have houtput : "output" ∈ settings.sections.map Section.name :=
    List.mem_map.mpr ⟨⟨"output", settings.output.entries⟩,
      mem_sections_iff.mpr (.inr ⟨rfl, h, rfl⟩), rfl⟩
  have hget (name : String) : result.categories.get? name = settings.categories.get? name := by
    rw [hcategories]
    split
    case isTrue => rfl
    case isFalse hnone =>
      cases hname : settings.categories.get? name with
      | none => rfl
      | some category =>
        have hsection : ⟨name, category.entries⟩ ∈ settings.sections :=
          mem_sections_iff.mpr (.inl ⟨category, hname, rfl⟩)
        refine absurd ⟨List.mem_map_of_mem hsection, ?_⟩ hnone
        rintro rfl
        simp [h] at hname
  have hsame : result = settings := by
    obtain ⟨output, categories⟩ := result
    rw [if_pos houtput] at hresult
    obtain rfl : output = settings.output := hresult
    obtain rfl : categories = settings.categories := NameMap.ext_get? hget
    rfl
  exact hsame ▸ hrun

/-! ## Both together -/

section
variable {format : Toml.Format}

/-- A format that writes all documents writes all settings. -/
theorem exists_toToml (hformat : format.Faithful) (settings : Settings) :
    ∃ document, settings.toToml format = .ok document :=
  hformat.writes settings.increasing_sections fun _ => readable_of_mem_sections

theorem ofToml_of_toToml (hformat : format.Faithful) {settings : Settings}
    (h : settings.categories.get? "output" = none) {document : String}
    (hwrite : settings.toToml format = .ok document) : ofToml format document = .ok settings :=
  ofToml_eq_ok_iff.mpr ⟨_, hformat.reads_back settings.increasing_sections
    (fun _ => readable_of_mem_sections) hwrite, ofTable?_sections h⟩

/-- **Settings last.**  All settings can be written, and they are read back as they were
exactly when no category has the name of the output's section.  Whatever a text is
read as has none, so it is written and read again as itself, and all that drawing
takes from it stays the same. -/
theorem toToml_reads_back (hformat : format.Faithful) :
    (∀ settings : Settings, ∃ document, settings.toToml format = .ok document ∧
      (ofToml format document = .ok settings ↔ settings.categories.get? "output" = none)) ∧
    ∀ text settings, ofToml format text = .ok settings →
      settings.categories.get? "output" = none ∧
      ∃ document, settings.toToml format = .ok document ∧
        ofToml format document = .ok settings ∧
        (ofToml format document).map StyleSheet.ofSettings =
          .ok (StyleSheet.ofSettings settings) := by
  constructor
  · intro settings
    obtain ⟨document, hwrite⟩ := exists_toToml hformat settings
    exact ⟨document, hwrite, get?_output_of_ofToml, fun h => ofToml_of_toToml hformat h hwrite⟩
  · intro text settings htext
    have houtput := get?_output_of_ofToml htext
    obtain ⟨document, hwrite⟩ := exists_toToml hformat settings
    have hread := ofToml_of_toToml hformat houtput hwrite
    exact ⟨houtput, document, hwrite, hread, by rw [hread]; rfl⟩

end

/-- Names and texts that need quotes, and some of them escapes. -/
def quoted : Settings where
  output := { width := 4294967295 }
  categories := NameMap.ofList
    [("", { visit := true }),
      ("a.\"b'", { shape := some "'''\"\"\"\n", color := some "\x07\\" })]

theorem toToml_reads_back_quoted :
    Toml.plainFormat.Faithful ∧ quoted.categories.get? "output" = none ∧
    ∃ document, quoted.toToml Toml.plainFormat = .ok document ∧
      ofToml Toml.plainFormat document = .ok quoted := by
  have houtput : quoted.categories.get? "output" = none := by decide +kernel
  obtain ⟨document, hwrite, hread⟩ :=
    (toToml_reads_back Toml.plainFormat_faithful).1 quoted
  exact ⟨Toml.plainFormat_faithful, houtput, document, hwrite, hread.mpr houtput⟩

end Settings

end SyntaxForest
