import TagTemplate.Catalog
import TagTemplate.CommandLine.Arguments
import TagTemplate.Json.Reader
import TagTemplate.Report.Layout
import TagTemplate.Settings
import TagTemplate.Text.Shown

/-! A run of the command line: settings, data, strings and form are read in this order,
the template is rendered, and only a complete rendering is written. -/

namespace TagTemplate

/-- What a run ends with. The log, which goes to standard error too, is no part of it: a
warning for each key that has no localization string, and under `-v` what is compiled and
loaded. -/
structure Outcome where
  exitCode : Nat
  stdout : String
  stderr : String
  deriving DecidableEq, Repr

/-- Why a run of a well-formed command line fails. -/
inductive Complaint where
  | settings (path : String) (cause : TemplateError)
  | unreadable (what path : String) (cause : FileFault)
  | malformed (what path : String)
  | rendering (error : TemplateError) (report : Option String)
  | unwritten (path : String) (cause : FileFault)

/-- A failed step, with what made it fail. -/
def withCause (step path cause : String) : String :=
  s!"Error: {step} {showQuoted path}\n\nCaused by:\n    {cause}\n"

namespace Complaint

def message : Complaint → String
  | settings path cause => withCause "Failed to load configuration:" path cause.sentence
  | unreadable what path cause => withCause s!"Failed to read {what} file:" path cause.message
  | malformed what path => withCause s!"Invalid {what} JSON in" path "not the JSON asked for"
  | rendering _ (some report) => report
  | rendering error none => s!"Error: {error.sentence}\n"
  | unwritten path cause => withCause "Failed to write output:" path cause.message

end Complaint

def usageLines : List String :=
  ["Usage: tagtemplate [OPTIONS] <NAME>", "", "Renders the template NAME with JSON data.", "",
   "Options:",
   "  -c, --config <FILE>        YAML settings (template-dir, extension, globals)",
   "  -d, --template-dir <DIR>   directory of the templates",
   "  -e, --extension <EXT>      extension of template files",
   "      --data <FILE>          JSON object of variables",
   "      --strings <FILE>       JSON object of localized strings",
   "      --form <FILE>          JSON object of submitted form values",
   "  -o, --output <FILE>        where to write the output",
   "  -v, --verbose              may be repeated",
   "  -h, --help                 show this help"]

def usage : String :=
  String.join (usageLines.map (· ++ "\n"))

namespace CommandLine

variable {m : Type → Type} [Monad m]

abbrev Values := List (Switch × String)

/-- The settings in the named file or the default ones, with the folder and the
extension that the command line names instead. -/
def settings (files : FileAccess m) (values : Values) : ExceptT Complaint m Settings := do
  let s ← match values.lookup .config with
    | none => pure Settings.default
    | some path =>
      match ← ExceptT.lift (Settings.load files path) with
      | .ok s => pure s
      | .error e => throw (.settings path e)
  return { s with
    folder := (values.lookup .folder).getD s.folder
    extension := (values.lookup .extension).getD s.extension }

/-- The table in the JSON file that an option names. -/
def table? {α : Type} (files : FileAccess m) (values : Values) (option : Switch) (what : String)
    (decode : Json → Option α) : ExceptT Complaint m (Option α) := do
  match values.lookup option with
  | none => return none
  | some path =>
    match ← ExceptT.lift (files.read path) with
    | .error fault => throw (.unreadable what path fault)
    | .ok text =>
      match (Json.read? text).bind decode with
      | some a => return some a
      | none => throw (.malformed what path)

/-- The report of a failed rendering, if its place and the template's source are known. -/
def report (load : Loader m) (e : TemplateError) : m (Option String) := do
  match e.offset?, e.template? with
  | some _, some name =>
    match ← load name with
    | .ok source => return report? e source
    | .error _ => return none
  | _, _ => return none

/-- The complete rendering that the command line asks for. -/
def rendering (files : FileAccess m) (name : String) (values : Values) :
    ExceptT Complaint m String := do
  let s ← settings files values
  let data ← table? files values .data "data" Json.toValues?
  let strings ← table? files values .strings "strings" Json.toTexts?
  let form ← table? files values .form "form" Json.toTexts?
  let load := s.toFolder.load files
  let request : Request := ⟨strings.getD [], data.getD [], form⟩
  let (result, _) ← ExceptT.lift ((Catalog.ofGlobals s.globals).render load name request)
  match result with
  | .ok output => return output
  | .error e => throw (.rendering e (← ExceptT.lift (report load e)))

/-- Writes the rendering to the named file, or else to standard output. -/
def render (files : FileAccess m) (name : String) (values : Values) :
    ExceptT Complaint m String := do
  let output ← rendering files name values
  match values.lookup .output with
  | none => return output
  | some path =>
    match ← ExceptT.lift (files.write path output) with
    | .ok () => return ""
    | .error fault => throw (.unwritten path fault)

/-- Runs a command line; one that is not understood is a matter of usage. Standard error is
what a run writes there apart from its log. -/
def run (files : FileAccess m) (arguments : List String) : m Outcome := do
  match Invocation.ofArguments? arguments with
  | none => return ⟨2, "", usage⟩
  | some .help => return ⟨0, usage, ""⟩
  | some (.render name values) =>
    match ← (render files name values).run with
    | .ok output => return ⟨0, output, ""⟩
    | .error complaint => return ⟨1, "", complaint.message⟩

end CommandLine

end TagTemplate
