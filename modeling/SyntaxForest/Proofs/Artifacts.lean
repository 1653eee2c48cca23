import SyntaxForest.CommandLine.Artifact
import SyntaxForest.Proofs.StoreWrites

/-! What drawing one source does to the files: it writes the artifact of the source or
nothing.  An artifact never has the extension of a source, and the artifacts of two
sources are the same path exactly when the sources have the same stem. -/

namespace SyntaxForest

/-! ## What artifacts are called -/

namespace Options

/-- The extension of artifacts. -/
def extension (options : Options) : String :=
  if options.dump then "json" else options.format.name

/-- What the artifact of a source is called. -/
def artifactName (options : Options) (source : Path) : String :=
  source.artifactStem ++ "." ++ options.extension

/-- The path of the artifact of a source. -/
def artifact (options : Options) (source : Path) : Path :=
  Path.artifact options.outputDirectory source.artifactStem options.extension

variable (options : Options) {source other : Path}

theorem extension_spec :
    options.extension ≠ "" ∧ '.' ∉ options.extension.toList ∧ '/' ∉ options.extension.toList ∧
      isSourceExtension options.extension = false := by
  rw [extension]
  split
  · decide
  · cases options.format <;> decide

theorem isName_artifactName (source : Path) : Path.IsName (options.artifactName source) := by
  obtain ⟨hstem, hslash⟩ := source.artifactStem_spec
  obtain ⟨hextension, -, hslash', -⟩ := options.extension_spec
  exact Path.isName_append hstem hslash hextension hslash'

theorem artifact_eq_join (source : Path) :
    options.artifact source = options.outputDirectory.join (options.artifactName source) :=
  rfl

/-- No artifact is called as a source is. -/
theorem hasExtension_artifactName (source : Path) :
    (Path.mk (options.artifactName source)).hasExtension sourceExtensions = false := by
  obtain ⟨-, hpoint, -, hsource⟩ := options.extension_spec
  have hcut : Path.cutName (options.artifactName source) =
      (source.artifactStem, some options.extension) :=
    Path.cutName_append source.artifactStem_spec.1 hpoint
  rw [Path.hasExtension, Path.extension?, Path.fileName?_mk (options.isName_artifactName source),
    Option.bind_some, hcut]
  exact hsource

theorem artifactName_eq_iff :
    options.artifactName source = options.artifactName other ↔
      source.artifactStem = other.artifactStem := by
  rw [artifactName, artifactName, ← String.toList_inj, ← String.toList_inj]
  simp

theorem artifact_eq_iff :
    options.artifact source = options.artifact other ↔
      source.artifactStem = other.artifactStem := by
  rw [← options.artifactName_eq_iff]
  refine ⟨fun h => ?_, fun h => by rw [artifact_eq_join, artifact_eq_join, h]⟩
  have htext : (options.artifact source).text = (options.artifact other).text := by rw [h]
  rw [artifact_eq_join, artifact_eq_join, Path.text_join (options.isName_artifactName source),
    Path.text_join (options.isName_artifactName other)] at htext
  split at htext
  · rw [← String.toList_inj] at htext ⊢
    simpa using htext
  · rw [← String.toList_inj] at htext ⊢
    simpa using htext

/-- An artifact is put into the output directory. -/
theorem directory?_of_locate_artifact {store : FileStore} (hlinks : store.NoLinks)
    {purpose : FileStore.Purpose} {location : Location}
    (h : store.locate purpose (options.artifact source) = .ok location) :
    ∃ directory, store.directory? options.outputDirectory = some directory ∧
      location = directory ++ [options.artifactName source] :=
  FileStore.directory?_of_locate_join hlinks (options.isName_artifactName source) h

/-- The artifacts of sources with different stems are put at different locations. -/
theorem artifactStem_eq_of_locate {store : FileStore} (hlinks : store.NoLinks)
    {purpose purpose' : FileStore.Purpose} {location : Location}
    (h : store.locate purpose (options.artifact source) = .ok location)
    (h' : store.locate purpose' (options.artifact other) = .ok location) :
    source.artifactStem = other.artifactStem := by
  obtain ⟨directory, -, hlocation⟩ := options.directory?_of_locate_artifact hlinks h
  obtain ⟨directory', -, hlocation'⟩ := options.directory?_of_locate_artifact hlinks h'
  rw [hlocation] at hlocation'
  have hname := List.singleton_inj.mp (List.append_inj_right' hlocation' rfl)
  exact options.artifactName_eq_iff.mp hname

/-- No artifact is put where a file stands that is called as a source is. -/
theorem locate_artifact_ne {store : FileStore} (hlinks : store.NoLinks)
    {purpose : FileStore.Purpose} {above : Location} {name : String}
    (hname : (Path.mk name).hasExtension sourceExtensions = true) :
    store.locate purpose (options.artifact source) ≠ .ok (above ++ [name]) := by
  intro h
  obtain ⟨directory, -, hlocation⟩ := options.directory?_of_locate_artifact hlinks h
  obtain rfl := List.singleton_inj.mp (List.append_inj_right' hlocation rfl)
  rw [options.hasExtension_artifactName] at hname
  cases hname

/-- No path with the extension of a source leads to an artifact. -/
theorem locate_artifact_ne_of_hasExtension {store : FileStore} (hlinks : store.NoLinks)
    {purpose purpose' : FileStore.Purpose} {path : Path}
    (hpath : path.hasExtension sourceExtensions = true) {location : Location}
    (h : store.locate purpose path = .ok location) :
    store.locate purpose' (options.artifact source) ≠ .ok location := by
  obtain ⟨name, hname⟩ := Path.exists_fileName?_of_hasExtension hpath
  obtain ⟨above, rfl⟩ := FileStore.exists_concat_of_locate hlinks hname h
  rw [Path.hasExtension_of_fileName? hname] at hpath
  exact options.locate_artifact_ne hlinks hpath

/-- Artifacts are texts, and no program is asked for images. -/
def WritesText (options : Options) : Prop :=
  options.dump = true ∨ options.format.image? = none

/-- The format of the images that a program is asked for. -/
def image? (options : Options) : Option ImageFormat :=
  if options.dump then none else options.format.image?

theorem image?_eq_none_iff : options.image? = none ↔ options.WritesText := by
  rw [image?, WritesText]
  cases options.dump <;> simp

end Options

/-- The program writes nothing but the file that it is told to write. -/
def ImageProgram.WritesOutputOnly (program : ImageProgram) : Prop :=
  ∀ format path graph store result,
    program.run? (arguments format path) graph store = some result →
      result.store = store ∨ ∃ content, store.write path content = .ok result.store

namespace Artifact

open FileStore (WrittenAt)

variable {setting : Setting} {store : FileStore} {source : Path}

/-! ## What comes of one source -/

/-- The text that a content is rendered as: the artifact itself, or the graph that a
program makes an image of. -/
def rendering (setting : Setting) (content : ByteArray) : Except Failure String :=
  match Java.Source.ofBytes setting.parser content with
  | .error failure => .error failure
  | .ok source =>
    if setting.options.dump then (Java.MethodDump.ofSource source).map (·.json.pretty)
    else
      match Forest.build setting.sheet source.project with
      | .error fault => .error (Failure.invariantViolation fault.message)
      | .ok forest =>
        .ok (if setting.options.format = .json then forest.json.pretty
          else forest.dot { size := setting.sheet.canvas })

/-- What is printed about a content. -/
def printout (setting : Setting) (content : ByteArray) : String :=
  match Java.Source.ofBytes setting.parser content with
  | .error _ => ""
  | .ok source => printedTree setting source.project

/-- The outcome when a rendering is turned into an artifact. -/
def delivered (setting : Setting) (store : FileStore) (printed : String) (path : Path)
    (text : String) : Outcome :=
  match setting.options.image? with
  | some format =>
    ⟨(setting.program.render text format path store).1, printed,
      (setting.program.render text format path store).2.map fun _ => path⟩
  | none => written store printed path text

/-- A source that cannot be read. -/
def unread (source : Path) (error : SystemError) : Failure :=
  (error.failure.during "file::read").noting "path" source.text

theorem ofFile_eq (setting : Setting) (store : FileStore) (file : SourceFile) :
    ofFile setting store file =
      match rendering setting file.content with
      | .error failure => failed store (printout setting file.content) failure
      | .ok text =>
        delivered setting store (printout setting file.content)
          (setting.options.artifact file.path) text := by
  rw [ofFile, rendering, printout]
  cases Java.Source.ofBytes setting.parser file.content with
  | error failure => rfl
  | ok java =>
    dsimp only
    cases hdump : setting.options.dump with
    | true =>
      have himage : setting.options.image? = none := if_pos hdump
      rw [Options.artifact, Options.extension, hdump]
      cases Java.MethodDump.ofSource java with
      | error failure => rfl
      | ok dump =>
        simp only [Except.map, if_true, delivered, himage]
    | false =>
      have himage : setting.options.image? = setting.options.format.image? := by
        rw [Options.image?, hdump]
        rfl
      rw [Options.artifact, Options.extension, hdump]
      cases Forest.build setting.sheet java.project with
      | error fault => rfl
      | ok forest =>
        simp only [drawn, delivered, himage, Bool.false_eq_true, if_false]
        cases hformat : setting.options.format.image? with
        | none => rfl
        | some format =>
          -- no image has the extension of the JSON text
          have hjson : setting.options.format ≠ .json := by
            intro hjson
            rw [hjson] at hformat
            cases hformat
          simp only [if_neg hjson]

theorem ofPath_eq (setting : Setting) (store : FileStore) (source : Path) :
    ofPath setting store source =
      match store.read source with
      | .error error => failed store "" (unread source error)
      | .ok content =>
        match rendering setting content with
        | .error failure => failed store (printout setting content) failure
        | .ok text =>
          delivered setting store (printout setting content) (setting.options.artifact source)
            text := by
  rw [ofPath, SourceFile.read]
  cases store.read source with
  | error error => rfl
  | ok content => exact ofFile_eq setting store ⟨source, content⟩

/-- A source fails at once, with the files as they were, or is read and rendered and its
rendering is turned into its artifact. -/
theorem ofPath_failed_or_delivered (setting : Setting) (store : FileStore) (source : Path) :
    (∃ printed failure, ofPath setting store source = failed store printed failure) ∨
    ∃ content text, store.read source = .ok content ∧ rendering setting content = .ok text ∧
      ofPath setting store source =
        delivered setting store (printout setting content) (setting.options.artifact source)
          text := by
  rw [ofPath_eq]
  cases hread : store.read source with
  | error error => exact .inl ⟨_, _, rfl⟩
  | ok content =>
    dsimp only
    cases hrendering : rendering setting content with
    | error failure => exact .inl ⟨_, _, rfl⟩
    | ok text => exact .inr ⟨content, text, rfl, hrendering, rfl⟩

/-! ## Where artifacts are written -/

theorem writtenAt_written (store : FileStore) (printed : String) (path : Path) (text : String) :
    WrittenAt (fun location => store.locate .create path = .ok location) store
      (written store printed path text).store := by
  rw [written, writeText]
  cases h : store.write path text.toUTF8 with
  | error error => exact .refl _ store
  | ok after => exact FileStore.writtenAt_of_write h

theorem writtenAt_render {program : ImageProgram} (h : program.WritesOutputOnly)
    (graph : String) (format : ImageFormat) (path : Path) (store : FileStore) :
    WrittenAt (fun location => store.locate .create path = .ok location) store
      (program.render graph format path store).1 := by
  rw [ImageProgram.render]
  split
  · exact .refl _ store
  · cases hrun : program.run? (ImageProgram.arguments format path) graph store with
    | none => exact .refl _ store
    | some result =>
      have hresult : WrittenAt (fun location => store.locate .create path = .ok location) store
          result.store := by
        rcases h format path graph store result hrun with hsame | ⟨content, hwrite⟩
        · rw [hsame]
          exact .refl _ store
        · exact FileStore.writtenAt_of_write hwrite
      dsimp only
      split
      · exact hresult
      · exact hresult

theorem delivered_of_image? {format : ImageFormat} (h : setting.options.image? = some format)
    (store : FileStore) (printed : String) (path : Path) (text : String) :
    delivered setting store printed path text =
      ⟨(setting.program.render text format path store).1, printed,
        (setting.program.render text format path store).2.map fun _ => path⟩ := by
  rw [delivered, h]

theorem delivered_of_writesText (h : setting.options.WritesText)
    (store : FileStore) (printed : String) (path : Path) (text : String) :
    delivered setting store printed path text = written store printed path text := by
  rw [delivered, setting.options.image?_eq_none_iff.mpr h]

theorem writtenAt_delivered
    (h : setting.options.WritesText ∨ setting.program.WritesOutputOnly)
    (store : FileStore) (printed : String) (path : Path) (text : String) :
    WrittenAt (fun location => store.locate .create path = .ok location) store
      (delivered setting store printed path text).store := by
  cases himage : setting.options.image? with
  | none =>
    rw [delivered_of_writesText (setting.options.image?_eq_none_iff.mp himage)]
    exact writtenAt_written store printed path text
  | some format =>
    rw [delivered_of_image? himage]
    rcases h with htext | hprogram
    · rw [setting.options.image?_eq_none_iff.mpr htext] at himage
      cases himage
    · exact writtenAt_render hprogram text format path store

/-- Drawing a source writes its artifact at most. -/
theorem writtenAt_ofPath (h : setting.options.WritesText ∨ setting.program.WritesOutputOnly)
    (store : FileStore) (source : Path) :
    WrittenAt
      (fun location => store.locate .create (setting.options.artifact source) = .ok location)
      store (ofPath setting store source).store := by
  rcases ofPath_failed_or_delivered setting store source with
    ⟨printed, failure, heq⟩ | ⟨content, text, -, -, heq⟩
  · rw [heq]
    exact .refl _ store
  · rw [heq]
    exact writtenAt_delivered h store (printout setting content) _ text

theorem path_of_delivered {printed text : String} {path told : Path}
    (h : (delivered setting store printed path text).result = .ok told) : told = path := by
  cases himage : setting.options.image? with
  | none =>
    rw [delivered_of_writesText (setting.options.image?_eq_none_iff.mp himage), written] at h
    split at h
    · exact (Except.ok.inj h).symm
    · cases h
  | some format =>
    rw [delivered_of_image? himage] at h
    cases hrender : (setting.program.render text format path store).2 with
    | error failure =>
      rw [hrender] at h
      cases h
    | ok done =>
      rw [hrender] at h
      exact (Except.ok.inj h).symm

/-- The path that is told is the artifact of the source. -/
theorem artifact_of_ofPath {path : Path} (h : (ofPath setting store source).result = .ok path) :
    path = setting.options.artifact source := by
  rcases ofPath_failed_or_delivered setting store source with
    ⟨printed, failure, heq⟩ | ⟨content, text, -, -, heq⟩
  · rw [heq] at h
    cases h
  · rw [heq] at h
    exact path_of_delivered h

/-! ## Texts that are written -/

/-- A source that fails leaves everything as it is; one that is drawn was read and
rendered, and its artifact was written. -/
theorem ofPath_cases (h : setting.options.WritesText) (store : FileStore) (source : Path) :
    (∃ failure, (ofPath setting store source).result = .error failure ∧
      (ofPath setting store source).store = store) ∨
    ∃ content text, store.read source = .ok content ∧ rendering setting content = .ok text ∧
      (ofPath setting store source).result = .ok (setting.options.artifact source) ∧
      store.write (setting.options.artifact source) text.toUTF8 =
        .ok (ofPath setting store source).store := by
  rcases ofPath_failed_or_delivered setting store source with
    ⟨printed, failure, heq⟩ | ⟨content, text, hread, hrendering, heq⟩
  · rw [heq]
    exact .inl ⟨failure, rfl, rfl⟩
  · rw [heq, delivered_of_writesText h, written, writeText]
    cases hwrite : store.write (setting.options.artifact source) text.toUTF8 with
    | error error => exact .inl ⟨_, rfl, rfl⟩
    | ok after => exact .inr ⟨content, text, hread, hrendering, rfl, hwrite⟩

/-- What is told of a source: what was printed, and the artifact with what it holds then,
or the failure. -/
structure Account where
  printed : String
  result : Except Failure (Path × Option ByteArray)

/-- What is told of the source that an outcome is about. -/
def Outcome.account (outcome : Outcome) : Account where
  printed := outcome.printed
  result := outcome.result.map fun artifact => (artifact, outcome.store.content? artifact)

end Artifact

end SyntaxForest
