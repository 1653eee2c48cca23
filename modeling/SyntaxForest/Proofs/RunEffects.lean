import SyntaxForest.CommandLine.Run
import SyntaxForest.Proofs.Batches
import SyntaxForest.Toml.Writer

/-! How a whole run ends, and what it does to the files.  Input, options, settings and
sources are settled one after the other, and the first of them that fails ends the run
with a status of its own.  Only the settings file can have been created by then; after
that, nothing is written but the artifacts of the sources. -/

namespace SyntaxForest

variable {store kept : FileStore} {arguments : Arguments} {failure : Failure}

/-! ## The stages before the drawing -/

theorem Arguments.status_of_input (h : arguments.input = .error failure) :
    ExitStatus.ofFailure failure = .missingInput ∨
      ExitStatus.ofFailure failure = .conflictingInput := by
  rw [Arguments.input] at h
  split at h
  · cases h
  · cases h
  · obtain rfl := Except.error.inj h
    exact .inl (by decide)
  · obtain rfl := Except.error.inj h
    exact .inr (by decide)

namespace Options

variable {input : Input}

theorem kind_of_checkInput (h : checkInput store input = .error failure) :
    failure.kind = .invalidPath := by
  cases input with
  | file path =>
    rw [checkInput] at h
    split at h
    · obtain rfl := Except.error.inj h
      rfl
    · split at h
      · obtain rfl := Except.error.inj h
        rfl
      · cases h
  | directory path =>
    rw [checkInput] at h
    split at h
    · obtain rfl := Except.error.inj h
      rfl
    · cases h

theorem kind_of_checkOutput {path : Path} (h : checkOutput store path = .error failure) :
    failure.kind = .invalidPath := by
  rw [checkOutput] at h
  split at h
  · obtain rfl := Except.error.inj h
    rfl
  · split at h
    · cases h
    · obtain rfl := Except.error.inj h
      rfl
  · obtain rfl := Except.error.inj h
    rfl

/-- Options are refused by one of the two checks. -/
theorem ofArguments_cases (store : FileStore) (arguments : Arguments) (input : Input) :
    (∃ failure, ofArguments store arguments input = .error failure ∧
      (checkInput store input = .error failure ∨
        ∃ directory, checkOutput store directory = .error failure)) ∨
    ∃ options, ofArguments store arguments input = .ok options ∧
      options.config = arguments.config := by
  rw [ofArguments]
  cases hinput : checkInput store input with
  | error refused => exact .inl ⟨refused, rfl, .inl rfl⟩
  | ok _ =>
    cases arguments.output with
    | none => exact .inr ⟨_, rfl, rfl⟩
    | some directory =>
      cases houtput : checkOutput store directory with
      | error refused =>
        refine .inl ⟨refused, ?_, .inr ⟨directory, houtput⟩⟩
        simp only [bind, Except.bind, houtput]
      | ok _ =>
        refine .inr ⟨⟨input, directory, arguments.config, arguments.format, arguments.dump,
          arguments.printTree⟩, ?_, rfl⟩
        simp only [bind, Except.bind, houtput]
        rfl

theorem status_of_ofArguments (h : ofArguments store arguments input = .error failure) :
    ExitStatus.ofFailure failure = .invalidPath := by
  have hkind : failure.kind = .invalidPath := by
    rcases ofArguments_cases store arguments input with ⟨refused, hrefused, hcheck⟩ | ⟨_, hok, -⟩
    · rw [hrefused] at h
      obtain rfl := Except.error.inj h
      rcases hcheck with hinput | ⟨directory, houtput⟩
      · exact kind_of_checkInput hinput
      · exact kind_of_checkOutput houtput
    · rw [hok] at h
      cases h
  rw [ExitStatus.ofFailure, hkind]

theorem config_of_ofArguments {options : Options}
    (h : ofArguments store arguments input = .ok options) : options.config = arguments.config := by
  rcases ofArguments_cases store arguments input with ⟨_, hrefused, -⟩ | ⟨taken, hok, hconfig⟩
  · rw [hrefused] at h
    cases h
  · rw [hok] at h
    obtain rfl := Except.ok.inj h
    exact hconfig

end Options

namespace Settings

variable {format : Toml.Format} {path : Path} {settings : Settings}

theorem status_of_load (h : load format store path = .error failure) :
    ExitStatus.ofFailure failure = .configFailed := by
  rw [load] at h
  split at h
  · obtain rfl := Except.error.inj h
    rfl
  · split at h
    · cases h
    · obtain rfl := Except.error.inj h
      rfl

theorem status_of_create (h : create format store path = .error failure) :
    ExitStatus.ofFailure failure = .configFailed := by
  rw [create] at h
  split at h
  · obtain rfl := Except.error.inj h
    rfl
  · split at h
    · cases h
    · obtain rfl := Except.error.inj h
      rfl

/-- However settings fail, the run ends with the status of settings. -/
theorem status_of_loadOrCreate (h : loadOrCreate format store path = .error failure) :
    ExitStatus.ofFailure failure = .configFailed := by
  rw [loadOrCreate] at h
  split at h
  · cases hload : load format store path with
    | error refused =>
      rw [hload] at h
      obtain rfl := Except.error.inj h
      exact status_of_load hload
    | ok settings =>
      rw [hload] at h
      cases h
  · cases hcreate : create format store path with
    | error refused =>
      rw [hcreate] at h
      obtain rfl := Except.error.inj h
      exact status_of_create hcreate
    | ok after =>
      rw [hcreate] at h
      cases h

/-- A path that leads to nothing is not put where something stands. -/
theorem get?_of_not_contains (h : ¬ store.contains path = true) {location : Location}
    (hlocate : store.locate .create path = .ok location) : store.get? location = none := by
  cases hget : store.get? location with
  | none => rfl
  | some entry =>
    have hfind := FileStore.find_eq_ok_iff.mpr ⟨FileStore.locate_look_of_create hlocate, hget⟩
    rw [FileStore.contains, hfind] at h
    exact absurd rfl h

theorem create_eq_ok_iff :
    create format store path = .ok kept ↔
      ∃ document, initial.toToml format = .ok document ∧
        store.write path (newText document).toUTF8 = .ok kept := by
  rw [create]
  cases initial.toToml format with
  | error cause => simp
  | ok document =>
    simp only [Except.ok.injEq, exists_eq_left']
    cases store.write path (newText document).toUTF8 with
    | error error => simp only [reduceCtorEq]
    | ok after => simp only [Except.ok.injEq]

/-- Settings are loaded, and nothing changes, or their file is written where none is. -/
theorem loaded_or_written (h : loadOrCreate format store path = .ok (kept, settings)) :
    kept = store ∨ ¬ store.contains path = true ∧
      ∃ document, initial.toToml format = .ok document ∧
        store.write path (newText document).toUTF8 = .ok kept := by
  rw [loadOrCreate] at h
  split at h
  · cases hload : load format store path with
    | error refused =>
      rw [hload] at h
      cases h
    | ok loaded =>
      rw [hload] at h
      exact .inl (congrArg Prod.fst (Except.ok.inj h)).symm
  · rename_i hcontains
    cases hcreate : create format store path with
    | error refused =>
      rw [hcreate] at h
      cases h
    | ok after =>
      rw [hcreate] at h
      obtain rfl : after = kept := congrArg Prod.fst (Except.ok.inj h)
      exact .inr ⟨hcontains, create_eq_ok_iff.mp hcreate⟩

/-- Settings that are loaded change nothing; those that are created stand in a new file
where nothing stood. -/
theorem store_of_loadOrCreate (h : loadOrCreate format store path = .ok (kept, settings)) :
    kept = store ∨
      ∃ document location, initial.toToml format = .ok document ∧
        store.locate .create path = .ok location ∧ store.get? location = none ∧
        kept = store.addFile location (newText document).toUTF8 := by
  rcases loaded_or_written h with hsame | ⟨hcontains, document, hdocument, hwrite⟩
  · exact .inl hsame
  · obtain ⟨location, hlocate, -, hput⟩ := FileStore.write_eq_ok_iff.mp hwrite
    have hnew := get?_of_not_contains hcontains hlocate
    refine .inr ⟨document, location, hdocument, hlocate, hnew, ?_⟩
    rw [hput, FileStore.put, hnew]

end Settings

theorem Discovery.status_of_files {walker : Walker} {extensions : List String} {input : Input}
    (h : Discovery.files walker store extensions input = .error failure) :
    ExitStatus.ofFailure failure = .walkFailed := by
  cases input with
  | file path => cases h
  | directory path =>
    rw [files, walk] at h
    split at h
    · obtain rfl := Except.error.inj h
      rfl
    · cases h

namespace Run

/-! ## The course of a run -/

/-- Everything before the drawing succeeds: options are taken, and settings and sources
are found, where the settings file is there or was created. -/
structure Prepared (tools : Tools) (store : FileStore) (arguments : Arguments)
    (options : Options) (kept : FileStore) (settings : Settings) (paths : List Path) : Prop where
  options_eq : ∃ input, arguments.input = .ok input ∧
    Options.ofArguments store arguments input = .ok options
  settings_eq : Settings.loadOrCreate tools.format store arguments.config = .ok (kept, settings)
  paths_eq : Discovery.files tools.walker kept sourceExtensions options.input = .ok paths

/-- The run whose sources were drawn. -/
def completed (batch : Batch) : Run where
  status := .success
  output := some batch.output
  errors := batch.errors ++ batch.closing
  store := batch.store

/-- The courses that a run can take, each with what is left behind. -/
inductive Course (tools : Tools) (store : FileStore) (arguments : Arguments) : Run → Prop
  | noInput {failure : Failure} (h : arguments.input = .error failure) :
    Course tools store arguments
      ⟨.ofFailure failure, none, "error: " ++ failure.message ++ "\n\n", store⟩
  | notTaken {input : Input} {failure : Failure} (hinput : arguments.input = .ok input)
      (h : Options.ofArguments store arguments input = .error failure) :
    Course tools store arguments (ended store failure)
  | noSettings {failure : Failure}
      (h : Settings.loadOrCreate tools.format store arguments.config = .error failure) :
    Course tools store arguments (ended store failure)
  | noSources {kept : FileStore} {settings : Settings} {input : Input} {failure : Failure}
      (hsettings : Settings.loadOrCreate tools.format store arguments.config = .ok (kept, settings))
      (h : Discovery.files tools.walker kept sourceExtensions input = .error failure) :
    Course tools store arguments (ended kept failure)
  | drawn {options : Options} {kept : FileStore} {settings : Settings} {paths : List Path}
      (h : Prepared tools store arguments options kept settings paths) :
    Course tools store arguments
      (completed (Batch.ofPaths (tools.setting options settings) kept paths))

variable (tools : Tools)

theorem course (store : FileStore) (arguments : Arguments) :
    Course tools store arguments (ofArguments tools store arguments) := by
  rw [ofArguments]
  cases hinput : arguments.input with
  | error failure => exact .noInput hinput
  | ok input =>
    dsimp only
    cases hoptions : Options.ofArguments store arguments input with
    | error failure => exact .notTaken hinput hoptions
    | ok options =>
      dsimp only
      rw [batch, Options.config_of_ofArguments hoptions]
      cases hsettings : Settings.loadOrCreate tools.format store arguments.config with
      | error failure => exact .noSettings hsettings
      | ok loaded =>
        obtain ⟨kept, settings⟩ := loaded
        dsimp only
        cases hpaths : Discovery.files tools.walker kept sourceExtensions options.input with
        | error failure => exact .noSources hsettings hpaths
        | ok paths => exact .drawn ⟨⟨input, hinput, hoptions⟩, hsettings, hpaths⟩

theorem ofArguments_of_prepared {options : Options} {settings : Settings} {paths : List Path}
    (h : Prepared tools store arguments options kept settings paths) :
    ofArguments tools store arguments =
      completed (Batch.ofPaths (tools.setting options settings) kept paths) := by
  obtain ⟨⟨input, hinput, hoptions⟩, hsettings, hpaths⟩ := h
  simp only [ofArguments, hinput, hoptions, batch, Options.config_of_ofArguments hoptions,
    hsettings, hpaths]
  rfl

/-! ## Statuses -/

/-- The statuses of runs that are refused before anything is created. -/
def refusals : List ExitStatus :=
  [.missingInput, .conflictingInput, .invalidPath, .configFailed]

/-- Nothing changed, but that the settings file may have been created where nothing
stood. -/
def AtMostConfigCreated (format : Toml.Format) (store : FileStore) (config : Path)
    (after : FileStore) : Prop :=
  after = store ∨
    ∃ document location, Settings.initial.toToml format = .ok document ∧
      store.locate .create config = .ok location ∧ store.get? location = none ∧
      after = store.addFile location (Settings.newText document).toUTF8

/-- A run is refused, or finds no sources, or succeeds. -/
theorem Course.outcome {tools : Tools} {run : Run} (h : Course tools store arguments run) :
    (run.status ∈ refusals ∧ run.output.getD "" = "" ∧ run.store = store) ∨
    (run.status = .walkFailed ∧ run.output.getD "" = "" ∧
      AtMostConfigCreated tools.format store arguments.config run.store) ∨
    (run.status = .success ∧ ∃ options kept settings paths,
      Prepared tools store arguments options kept settings paths) := by
  cases h with
  | noInput h =>
    refine .inl ⟨?_, rfl, rfl⟩
    rcases Arguments.status_of_input h with hstatus | hstatus <;> simp [hstatus, refusals]
  | notTaken _ h =>
    exact .inl ⟨by simp [ended, Options.status_of_ofArguments h, refusals], rfl, rfl⟩
  | noSettings h =>
    exact .inl ⟨by simp [ended, Settings.status_of_loadOrCreate h, refusals], rfl, rfl⟩
  | noSources hsettings h =>
    exact .inr (.inl ⟨Discovery.status_of_files h, rfl, Settings.store_of_loadOrCreate hsettings⟩)
  | drawn h => exact .inr (.inr ⟨rfl, _, _, _, _, h⟩)

/-- **How a run ends.**  It ends with success exactly when everything before the drawing
succeeds, however many of the sources fail.  Otherwise it prints nothing, and its status
is a refusal, with the files as before, or tells that no sources could be looked for,
when the settings file may have been created. -/
theorem status_ofArguments (store : FileStore) (arguments : Arguments) :
    let run := ofArguments tools store arguments
    run.status ∈ ExitStatus.success :: .walkFailed :: refusals ∧
      (run.status ∈ refusals → run.store = store) ∧
      (run.status = .walkFailed →
        AtMostConfigCreated tools.format store arguments.config run.store) ∧
      (run.status ≠ .success → run.output.getD "" = "") ∧
      (run.status = .success ↔ ∃ options kept settings paths,
        Prepared tools store arguments options kept settings paths) := by
  intro run
  have hsuccess (h : ∃ options kept settings paths,
      Prepared tools store arguments options kept settings paths) : run.status = .success := by
    obtain ⟨options, kept, settings, paths, hprepared⟩ := h
    exact congrArg Run.status (ofArguments_of_prepared tools hprepared)
  have hcourse : Course tools store arguments run := course tools store arguments
  have hwalk : ExitStatus.walkFailed ∉ refusals := by decide
  have hnone : ExitStatus.success ∉ refusals := by decide
  rcases hcourse.outcome with ⟨hstatus, houtput, hstore⟩ | ⟨hstatus, houtput, hstore⟩ |
    ⟨hstatus, hprepared⟩
  · refine ⟨by simp [hstatus], fun _ => hstore, fun h => ?_, fun _ => houtput, fun h => ?_,
      hsuccess⟩
    · exact absurd (h ▸ hstatus) hwalk
    · exact absurd (h ▸ hstatus) hnone
  · refine ⟨by simp [hstatus], fun h => ?_, fun _ => hstore, fun _ => houtput, fun h => ?_,
      hsuccess⟩
    · exact absurd (hstatus ▸ h) hwalk
    · rw [hstatus] at h
      cases h
  · refine ⟨by simp [hstatus], fun h => ?_, fun h => ?_, fun h => absurd hstatus h,
      fun _ => hprepared, hsuccess⟩
    · exact absurd (hstatus ▸ h) hnone
    · rw [hstatus] at h
      cases h

/-! ## Files -/

variable {tools}

end Run

end SyntaxForest
