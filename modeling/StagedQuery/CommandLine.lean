import StagedQuery.Explain.Physical
import StagedQuery.Format.Request

/-!
# The command line

The program takes the path of one file, makes or loads the plan in it, and
prints the explanation. `--dispatchable` says that the file holds a plan rather
than a request for one, `-h` or `--help` asks for the usage.

What the program does is a function of its arguments, of the file's content and
of the environment (`StagedQuery.CommandLine.run`); reading the file is left to
the caller.
-/

namespace StagedQuery

/-! ### Reports of errors -/

/-- What is reported of a file that cannot be read. -/
def FileFault.report (fault : FileFault) : String :=
  let opening := match fault.code? with
    | some code => "Os \x7b code: " ++ toString code ++ ", "
    | none => "Error \x7b "
  opening ++ "kind: " ++ fault.name ++ ", message: " ++ Text.quoted fault.description ++ " \x7d"

/-- What is reported of an error: its kind, and its wording between
parentheses. -/
def PlanError.report (error : PlanError) : String :=
  error.kind.name ++ "(" ++
    (match error with
      | .file fault => fault.report
      | error => Text.quoted error.text) ++ ")"

/-- What is reported of an explanation that is not completed. -/
def Halt.report : Halt → String
  | .fault error => error.report
  | .endless => Text.quoted "a stage lies below itself"

namespace CommandLine

/-! ### Arguments -/

/-- What the arguments ask for. -/
inductive Command where
  /-- Print the usage. -/
  | help
  /-- Explain the plan in a file. -/
  | explain (path : String) (dispatchable : Bool)
  deriving DecidableEq, Repr

/-- Reads arguments one by one, with the path and the flag found so far. Asking
for help ends the reading; a second path makes no sense. -/
def parseFrom (path? : Option String) (dispatchable : Bool) : List String → Option Command
  | [] => path?.map fun path => .explain path dispatchable
  | "--dispatchable" :: rest => parseFrom path? true rest
  | "-h" :: _ => some .help
  | "--help" :: _ => some .help
  | argument :: rest =>
    match path? with
    | none => parseFrom (some argument) dispatchable rest
    | some _ => none

/-- What the arguments ask for, if they make sense. -/
def parse (arguments : List String) : Option Command := parseFrom none false arguments

/-! ### Outcomes -/

/-- The usage of the program. -/
def usage : String := "usage: msq-explain [--dispatchable] <file.json>"

/-- What the program leaves behind. -/
structure Outcome where
  /-- The exit code. -/
  code : UInt32
  /-- What it prints. -/
  output : String
  /-- What it complains about. -/
  complaint : String
  deriving DecidableEq, Repr

/-- The outcome of a run that prints something. -/
def Outcome.success (output : String) : Outcome := ⟨0, output, ""⟩

/-- The outcome of a run that fails. -/
def Outcome.failure (report : String) : Outcome := ⟨1, "", "Error: " ++ report ++ "\n"⟩

/-- The outcome of explaining the plan in a file. -/
def explainFile (path : String) (content : Except FileFault String) (dispatchable : Bool)
    (environment : Environment) : Outcome :=
  match planOfFile path content dispatchable environment with
  | .error error => .failure error.report
  | .ok plan =>
    match plan.explain with
    | .error halt => .failure halt.report
    | .ok text => .success text

/-- **What the program does** with its arguments, where `read` gives the content
of a file by its path. -/
def run (arguments : List String) (read : String → Except FileFault String)
    (environment : Environment) : Outcome :=
  match parse arguments with
  | none => .failure (Text.quoted usage)
  | some .help => .success (usage ++ "\n")
  | some (.explain path dispatchable) =>
    explainFile path (read path) dispatchable environment

end CommandLine

end StagedQuery
