import ClassSchema.Generate

/-! # The command line -/

namespace ClassSchema

namespace CommandLine

structure Options where
  project : Option String := none
  input : Option String := none
  /-- The names of languages; none means all. -/
  languages : List String := []
  output : Option String := none
  skeletons : Option String := none
  overwriteSkeletons : Bool := false
  noRegistry : Bool := false
  verbose : Bool := false
deriving DecidableEq, Repr, Inhabited

/-- Options with exactly one value. -/
inductive Single where
  | project
  | input
  | output
  | skeletons
deriving DecidableEq, Repr

inductive Flag where
  | overwriteSkeletons
  | noRegistry
  | verbose
deriving DecidableEq, Repr

/-- What a name on the command line asks for. -/
inductive Name where
  | single (option : Single)
  | languages
  | flag (flag : Flag)
  | help
  | version
deriving DecidableEq, Repr

def longName? : String → Option Name
  | "project_name" => some (.single .project)
  | "input" => some (.single .input)
  | "language" => some .languages
  | "output" => some (.single .output)
  | "skeleton_dir" => some (.single .skeletons)
  | "overwrite_skeletons" => some (.flag .overwriteSkeletons)
  | "do_not_create_project_registry" => some (.flag .noRegistry)
  | "verbose" => some (.flag .verbose)
  | "help" => some .help
  | "version" => some .version
  | _ => none

def shortName? : Char → Option Name
  | 'i' => some (.single .input)
  | 'l' => some .languages
  | 'o' => some (.single .output)
  | 's' => some (.single .skeletons)
  | 'f' => some (.flag .overwriteSkeletons)
  | 'p' => some (.flag .noRegistry)
  | 'v' => some (.flag .verbose)
  | 'h' => some .help
  | 'V' => some .version
  | _ => none

/-- A path must not be empty. -/
def validPath (s : String) : Option String := if s.isEmpty then none else some s

/-- Sets an option that is not set yet. -/
def Options.set (o : Options) : Single → String → Option Options
  | .project, v => if o.project.isSome then none else some { o with project := v }
  | .input, v => if o.input.isSome then none else (validPath v).map fun v => { o with input := v }
  | .output, v =>
      if o.output.isSome then none else (validPath v).map fun v => { o with output := v }
  | .skeletons, v =>
      if o.skeletons.isSome then none else (validPath v).map fun v => { o with skeletons := v }

/-- Raises a flag that is not raised yet. -/
def Options.raise (o : Options) : Flag → Option Options
  | .overwriteSkeletons =>
      if o.overwriteSkeletons then none else some { o with overwriteSkeletons := true }
  | .noRegistry => if o.noRegistry then none else some { o with noRegistry := true }
  | .verbose => if o.verbose then none else some { o with verbose := true }

def Options.addLanguage (o : Options) (name : String) : Options :=
  { o with languages := o.languages ++ [name] }

/-- What the next arguments may be. -/
inductive Expected where
  | name
  /-- The value of an option. -/
  | value (option : Single)
  /-- Names of languages, of which there must be one. -/
  | languages
  | moreLanguages
deriving DecidableEq, Repr

/-- Whether a name may come next. -/
def Expected.admitsName : Expected → Bool
  | .name | .moreLanguages => true
  | .value _ | .languages => false

inductive Request where
  | run (options : Options)
  | help
  | version
deriving DecidableEq, Repr

/-- What reading a name leads to. -/
inductive Step where
  | go (expected : Expected) (options : Options)
  | stop (request : Request)

/-- Reads a name with the value that is attached to it, if any. -/
def step (o : Options) (attached : Option String) : Name → Option Step
  | .single option => match attached with
    | some v => (o.set option v).map (.go .name)
    | none => some (.go (.value option) o)
  | .languages => match attached with
    | some v => some (.go .name (o.addLanguage v))
    | none => some (.go .languages o)
  | .flag flag => if attached.isSome then none else (o.raise flag).map (.go .name)
  | .help => if attached.isSome then none else some (.stop .help)
  | .version => if attached.isSome then none else some (.stop .version)

/-- Reads an argument `--name` or `--name=value`. -/
def long (o : Options) (arg : List Char) : Option Step :=
  let (name, attached) := match Chars.cut? ['='] arg with
    | some (name, v) => (name, some (String.ofList v))
    | none => (arg, none)
  (longName? (String.ofList name)).bind (step o attached)

/-- Reads an argument of letters; what follows the letter of an option is its value. -/
def shorts (o : Options) : List Char → Option Step
  | [] => some (.go .name o)
  | c :: cs =>
      match shortName? c with
      | none => none
      | some (.flag flag) => match o.raise flag with
        | none => none
        | some o => shorts o cs
      | some .help => some (.stop .help)
      | some .version => some (.stop .version)
      | some name =>
          let attached := match cs with
            | [] => none
            | '=' :: v => some (String.ofList v)
            | v => some (String.ofList v)
          step o attached name

/-- A project and an input are required. -/
def finish (o : Options) : Option Request :=
  if o.project.isSome && o.input.isSome then some (.run o) else none

def parseFrom : Expected → Options → List String → Option Request
  | expected, o, [] => if expected.admitsName then finish o else none
  | expected, o, arg :: args =>
      let next (s : Option Step) : Option Request :=
        match s with
        | none => none
        | some (.stop request) => some request
        | some (.go expected o) => parseFrom expected o args
      match arg.toList with
      | ['-', '-'] => if expected.admitsName && args.isEmpty then finish o else none
      | '-' :: '-' :: cs => if expected.admitsName then next (long o cs) else none
      | '-' :: c :: cs => if expected.admitsName then next (shorts o (c :: cs)) else none
      | _ => match expected with
        | .name => none
        | .value option => match o.set option arg with
          | none => none
          | some o => parseFrom .name o args
        | .languages | .moreLanguages => parseFrom .moreLanguages (o.addLanguage arg) args

/-- Reads the arguments of the program; nothing if they are not as they should be. -/
def parse (args : List String) : Option Request := parseFrom .name {} args

def Options.config (o : Options) : Except Generate.Error Config := do
  let names := if o.languages.isEmpty then ["ALL"] else o.languages
  let languages ← (Language.parseAll names).mapError .language
  let config : Config := {
    project := o.project.getD ""
    output := o.output.getD (default : Config).output
    skeletons := o.skeletons
    overwriteSkeletons := o.overwriteSkeletons
    registry := !o.noRegistry }
  return config.withLanguages languages

def versionText : String := "xtypes-gen " ++ version ++ "\n"

def usage : String :=
  Lines.text [
    "Generate C++ classes and Python bindings from xtypes YAML schemas",
    "",
    "Usage: xtypes-gen [OPTIONS] --project_name <PROJECT_NAME> --input <INPUT>",
    "",
    "Options:",
    "      --project_name <PROJECT_NAME>     Project name, used as namespace and module name",
    "  -i, --input <INPUT>                   Schema file or directory of schema files",
    "  -l, --language <LANGUAGE>...          Target languages: CPP, PYTHON or ALL [default: ALL]",
    "  -o, --output <OUTPUT>                 Output directory for regenerated files",
    "  -s, --skeleton_dir <SKELETON_DIR>     Directory receiving the user-editable skeletons",
    "  -f, --overwrite_skeletons             Overwrite existing skeletons",
    "  -p, --do_not_create_project_registry  Do not generate the project registry",
    "  -v, --verbose                         Enable debug logging",
    "  -h, --help                            Print help",
    "  -V, --version                         Print version"]

end CommandLine

/-! ## Reports -/

namespace Report

/-- The messages of an error and of what caused it, the outermost first. -/
def causes : Generate.Error → List String
  | .load path e => (Generate.Error.load path e).message :: e.message :: match e with
    | .yaml fault => [fault.text]
    | .shape shape => [shape.message]
    | .unreadable reason => [reason]
    | .missingKey _ | .invalidValue .. => []
  | .resolve e => [(Generate.Error.resolve e).message, e.message, e.cause.message]
  | .batch e => [(Generate.Error.batch e).message, e.message]
  | .io path fault => [(Generate.Error.io path fault).message, fault.message]
  | .language e => [e.message]
  | .artifact e => [e.message]

/-- A cause with its number, if there are several; further lines are indented as far. -/
def causeText (number : Option Nat) (message : String) : String :=
  match number with
  | some n => "    " ++ Number.integerText n ++ ": " ++ Text.replace "\n" "\n       " message
  | none => "    " ++ Text.replace "\n" "\n    " message

def numbered : Nat → List String → List String
  | _, [] => []
  | n, m :: ms => causeText (some n) m :: numbered (n + 1) ms

def text (outermost : String) (causes : List String) : String :=
  let lines := match causes with
    | [] => []
    | [cause] => ["", "Caused by:", causeText none cause]
    | causes => "" :: "Caused by:" :: numbered 0 causes
  Lines.text (("Error: " ++ outermost) :: lines)

/-- A failure to compile an input; that a language is not known is told by itself. -/
def failure (input : String) (e : Generate.Error) : String :=
  match e with
  | .language e => text e.message []
  | e => text ("failed to compile '" ++ input ++ "'") (causes e)

end Report

/-- What the program answers. -/
structure Answer where
  exitCode : Nat
  output : String := ""
  /-- The report of a failure. -/
  report : Option String := none
deriving DecidableEq, Repr, Inhabited

namespace CommandLine

def usageAnswer : Answer := { exitCode := 2 }

def versionAnswer : Answer := { exitCode := 0, output := versionText }

def helpAnswer : Answer := { exitCode := 0 }

/-- The answer to a run that generates files: the namespaces on which the project depends. -/
def answer (input : String) : Except Generate.Error Generate.Summary → Answer
  | .ok summary => { exitCode := 0, output := summary.order.line }
  | .error e => { exitCode := 1, report := some (Report.failure input e) }

end CommandLine

/-- Runs the program on a tree of files. -/
def FileTree.runProgram (args : List String) (at_ : Timestamp) (t : FileTree) : Answer × FileTree :=
  match CommandLine.parse args with
  | none => (CommandLine.usageAnswer, t)
  | some .help => (CommandLine.helpAnswer, t)
  | some .version => (CommandLine.versionAnswer, t)
  | some (.run o) =>
      let input := o.input.getD ""
      match o.config with
      | .error e => (CommandLine.answer input (.error e), t)
      | .ok config =>
          let (result, t) := t.generate config at_ input
          (CommandLine.answer input result, t)

end ClassSchema
