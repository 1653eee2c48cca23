import SyntaxForest.ImageProgram

/-! Arguments of the command line.  Words are read from left to right.  The value of
an option may stand in its word or in the next one; in the latter case it is
looked at only when another option is met or the words are over, so that a word
that is not known at all is reported first. -/

namespace SyntaxForest

/-- What is written for each source: the text of the graph, the drawing as data, or an
image. -/
inductive OutputFormat where
  | dot
  | json
  | png
  | svg
deriving DecidableEq, Repr

namespace OutputFormat

/-- Every format, in order of declaration. -/
def all : List OutputFormat := [.dot, .json, .png, .svg]

/-- The name of a format, which is also the extension of its files. -/
def name : OutputFormat → String
  | .dot => "dot"
  | .json => "json"
  | .png => "png"
  | .svg => "svg"

/-- The format of a name. -/
def ofName? (name : String) : Option OutputFormat :=
  all.find? fun format => format.name == name

/-- The format of the image, for those that are images. -/
def image? : OutputFormat → Option ImageFormat
  | .png => some .png
  | .svg => some .svg
  | .dot | .json => none

/-- The format when none is asked for. -/
def initial : OutputFormat := .png

end OutputFormat

/-- What the command line asks for: the source to draw or the directory whose sources
are drawn, where artifacts go and where the settings are kept, what is written for
each source, whether a dump of the first method takes its place, and whether outlines
are printed. -/
structure Arguments where
  file : Option Path := none
  directory : Option Path := none
  output : Option Path := none
  config : Path := ⟨"astviz.toml"⟩
  format : OutputFormat := .initial
  dump : Bool := false
  printTree : Bool := false
deriving DecidableEq, Repr

namespace Arguments

/-- Why arguments are not taken.  Two of the reasons are no errors, but ask for a
text. -/
inductive Fault where
  | invalidValue
  | argumentConflict
  | unknownArgument
  | tooManyValues
  | displayHelp
  | displayVersion
deriving DecidableEq, Repr

/-- The name of a fault. -/
def Fault.name : Fault → String
  | .invalidValue => "InvalidValue"
  | .argumentConflict => "ArgumentConflict"
  | .unknownArgument => "UnknownArgument"
  | .tooManyValues => "TooManyValues"
  | .displayHelp => "DisplayHelp"
  | .displayVersion => "DisplayVersion"

/-- Whether a fault is no error but asks for a text. -/
def Fault.isRequest : Fault → Bool
  | .displayHelp | .displayVersion => true
  | _ => false

/-- The options. -/
inductive Key where
  | file
  | directory
  | output
  | config
  | format
  | dump
  | printTree
  | help
  | version
deriving DecidableEq, Repr

namespace Key

/-- Whether an option has a value. -/
def takesValue : Key → Bool
  | .file | .directory | .output | .config | .format => true
  | .dump | .printTree | .help | .version => false

/-- The option of a long name. -/
def ofLong? : String → Option Key
  | "file" => some .file
  | "dir" | "directory" => some .directory
  | "output" | "outputDir" => some .output
  | "config" => some .config
  | "format" => some .format
  | "dump" => some .dump
  | "print-tree" => some .printTree
  | "help" => some .help
  | "version" => some .version
  | _ => none

/-- The option of a letter. -/
def ofShort? : Char → Option Key
  | 'f' => some .file
  | 'd' => some .directory
  | 'o' => some .output
  | 'h' => some .help
  | 'V' => some .version
  | _ => none

end Key

/-- What a word of the command line is: one that names no option, as does a dash
alone; two dashes, after which no option is read; an option, with the value that
stands in the same word; or something that looks like an option and is none. -/
inductive Word where
  | value (text : String)
  | divider
  | option (key : Key) (attached : Option String)
  | unknown
deriving DecidableEq, Repr

/-- The word after two dashes: a name, and a value after an equals sign. -/
def Word.ofLong (text : List Char) : Word :=
  let attached :=
    match text.dropWhile (· ≠ '=') with
    | '=' :: given => some (String.ofList given)
    | _ => none
  match Key.ofLong? (.ofList (text.takeWhile (· ≠ '='))) with
  | some key => .option key attached
  | none => .unknown

/-- The word after one dash: a letter, and a value right after it or after an equals
sign.  Letters without value end the reading, so nothing after them counts. -/
def Word.ofShort (letter : Char) (rest : List Char) : Word :=
  match Key.ofShort? letter with
  | none => .unknown
  | some key =>
    if key.takesValue then
      match rest with
      | [] => .option key none
      | '=' :: given => .option key (some (.ofList given))
      | given => .option key (some (.ofList given))
    else .option key none

/-- What a word is. -/
def Word.of (text : String) : Word :=
  match text.toList with
  | ['-', '-'] => .divider
  | '-' :: '-' :: rest => .ofLong rest
  | '-' :: letter :: rest => .ofShort letter rest
  | _ => .value text

/-- How far reading has come: the options that were given, and one whose value was to
follow, with the value once it did. -/
structure Progress where
  arguments : Arguments := {}
  given : List Key := []
  pending : Option (Key × Option String) := none

/-- A path, which may not be empty. -/
def path? (text : String) : Except Fault Path :=
  if text = "" then .error .invalidValue else .ok ⟨text⟩

/-- The arguments with the value of an option. -/
def setting (arguments : Arguments) (value : String) : Key → Except Fault Arguments
  | .file => (path? value).map fun path => { arguments with file := some path }
  | .directory => (path? value).map fun path => { arguments with directory := some path }
  | .output => (path? value).map fun path => { arguments with output := some path }
  | .config => (path? value).map fun path => { arguments with config := path }
  | .format =>
    match OutputFormat.ofName? value with
    | some format => .ok { arguments with format }
    | none => .error .invalidValue
  | .dump | .printTree | .help | .version => .ok arguments

/-- The arguments with an option that has no value. -/
def switching (arguments : Arguments) : Key → Except Fault Arguments
  | .dump => .ok { arguments with dump := true }
  | .printTree => .ok { arguments with printTree := true }
  | .help => .error .displayHelp
  | .version => .error .displayVersion
  | .file | .directory | .output | .config | .format => .ok arguments

namespace Progress

/-- Takes the value of an option: it has to be there, then the option may not be
repeated, then the value has to fit. -/
def take (progress : Progress) (key : Key) (value : Option String) : Except Fault Progress :=
  match value with
  | none => .error .invalidValue
  | some value =>
    if key ∈ progress.given then .error .argumentConflict
    else (progress.arguments.setting value key).map fun arguments =>
      { progress with arguments, given := key :: progress.given }

/-- Takes the value of the option that is pending. -/
def settle (progress : Progress) : Except Fault Progress :=
  match progress.pending with
  | none => .ok progress
  | some (key, value) => { progress with pending := none }.take key value

/-- Takes an option without value. -/
def switch (progress : Progress) (key : Key) : Except Fault Progress :=
  if key ∈ progress.given then .error .argumentConflict
  else (progress.arguments.switching key).map fun arguments =>
    { progress with arguments, given := key :: progress.given }

/-- Reads an option. -/
def option (progress : Progress) (key : Key) (attached : Option String) :
    Except Fault Progress :=
  if key.takesValue then do
    let progress ← progress.settle
    match attached with
    | some value => progress.take key (some value)
    | none => .ok { progress with pending := some (key, none) }
  else
    match attached with
    | some _ => .error .tooManyValues
    | none => do (← progress.settle).switch key

/-- Reads the words that are left. -/
def words (progress : Progress) : List String → Except Fault Arguments
  | [] => progress.settle.map Progress.arguments
  | word :: rest =>
    match Word.of word with
    | .divider =>
      if rest = [] then progress.settle.map Progress.arguments else .error .unknownArgument
    | .unknown => .error .unknownArgument
    | .value text =>
      match progress.pending with
      | some (key, none) => words { progress with pending := some (key, some text) } rest
      | _ => .error .unknownArgument
    | .option key attached => do words (← progress.option key attached) rest

end Progress

/-- Reads the words of a command line. -/
def ofWords (words : List String) : Except Fault Arguments :=
  Progress.words {} words

end Arguments

end SyntaxForest
