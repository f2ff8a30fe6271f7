import Gazetteer.CommandLine.Arguments
import Gazetteer.CommandLine.Display
import Gazetteer.CommandLine.Variables
import Gazetteer.Upkeep.Run

/-!
# Running a command

A command meets a world: a file tree, variables and a time.  It leaves a tree, what it prints and an exit code.  The
configuration comes from the file at the root, then from variables, then from options; of two that set the same
thing the later counts.
-/

namespace Gazetteer.CommandLine

set_option autoImplicit false

/-- What a command meets. -/
structure World where
  tree : FileTree
  «variables» : Variables
  now : Time.Instant
  history : History
  /-- Whether output goes to a terminal. -/
  terminal : Bool

/-- What a command leaves. -/
structure Outcome where
  tree : FileTree
  output : String := ""
  errors : String := ""
  code : Nat

/-- The version of the program. -/
def version : String := "0.1.0"

/-- Whether styles are shown: as the variables demand, otherwise on a terminal. -/
def isStyled (w : World) : Bool :=
  let on (name : String) : Option Bool := (w.variables name).map (· != "0")
  if on "CLICOLOR_FORCE" = some true then true
  else if (w.variables "NO_COLOR").isSome then false
  else w.terminal && (on "CLICOLOR").getD true

/-- An error with what was attempted and what lies behind it. -/
structure Failure where
  attempt : String
  message : String
  causes : List String

/-- How a failure reads. -/
def Failure.text (f : Failure) : String :=
  "error: " ++ String.intercalate ": " (f.attempt :: f.message :: f.causes)

/-- The failure of an attempt at a configuration. -/
def Failure.ofConfig (attempt : String) (e : ConfigError) : Failure :=
  ⟨attempt, e.message, e.cause?.toList⟩

/-- What lies behind an error of a manifest. -/
def causeOf : ManifestError → List String
  | .io message | .json message => [message]
  | _ => []

/-- The failure of a run. -/
def Failure.ofRun (attempt : String) (e : RunError) : Failure :=
  ⟨attempt ++ "; existing manifests were left unchanged", e.message,
    match e with
    | .manifestDir _ e => [e.message]
    | .persist e => e.message :: causeOf e⟩

/-- The root that options name. -/
def Options.rootPath (o : Options) : Path := ⟨o.root.getD "."⟩

/-- The context that options lead to. -/
def contextOf (w : World) (o : Options) : Except Failure ScanContext := do
  let root := o.rootPath
  let c ← (Config.load w.tree root).mapError (.ofConfig s!"Failed to load config under {root.text}")
  let c ← (c.applyOverrides w.variables).mapError
    (.ofConfig "Invalid CARTOGRAPH_* environment override")
  let c := { c with
    manifestDir := o.manifestDir.getD c.manifestDir
    exclude := c.exclude ++ o.exclude
    strict := c.strict || o.strict }
  (ScanContext.make w.tree root c).mapError (.ofConfig s!"Cannot scan {root.text}")

/-- Lines as output. -/
def lines (ls : List String) : String := String.join (ls.map (· ++ "\n"))

/-- What a failed command leaves. -/
def failed (t : FileTree) (f : Failure) : Outcome := { tree := t, errors := f.text ++ "\n", code := 1 }

/-- What a run that writes manifests leaves. -/
def reported (attempt : String) (display : RefreshReport → List String)
    (r : Run (Except RunError RefreshReport)) : Outcome :=
  match r.result with
  | .ok report => { tree := r.tree, output := lines (display report), code := 0 }
  | .error e => failed r.tree (.ofRun attempt e)

/-- The kinds that a command is about: those named, or all. -/
def Options.kinds (o : Options) : List Kind :=
  if o.only.isEmpty then Kind.all else Kind.all.filter o.only.contains

/-- A command that is about a repository. -/
inductive Task
  | status
  | update (kinds : List Kind)
  | create

/-- Perform a task in a context. -/
def perform (w : World) (c : ScanContext) : Task → Outcome
  | .status =>
      let r := Run.status c w.tree w.history w.now
      { tree := r.tree
        output := lines (Display.status (isStyled w) c.manifestDir r.result)
        code := r.result.exitCode c.strict }
  | .update kinds =>
      reported "Refresh failed" (Display.refresh (isStyled w))
        (Run.refresh c w.tree w.history w.now kinds)
  | .create =>
      reported "Create failed" (Display.create (isStyled w)) (Run.create c w.tree w.history w.now)

/-- Perform a task with options. -/
def attempt (w : World) (o : Options) (task : Task) : Outcome :=
  match contextOf w o with
  | .error f => failed w.tree f
  | .ok c => perform w c task

/-- What help says. -/
def help : List String :=
  ["Codebase intelligence manifests for TypeScript and JavaScript repositories", "",
    "Usage: cartograph [OPTIONS] <COMMAND>", "",
    "Commands:",
    "  status   Report each manifest as current, stale or missing",
    "  update   Rebuild manifests from the current tree",
    "  create   Write manifests that do not exist yet",
    "  version  Show version",
    "  help     Print this message or the help of the given subcommand(s)", "",
    "Options:",
    "  -v, --verbose                      Enable verbose logging",
    "  -r, --root <ROOT>                  Repository root path (defaults to current directory) [default: .]",
    "      --manifest-dir <MANIFEST_DIR>  Manifest directory, relative to the root unless absolute",
    "  -e, --exclude <EXCLUDE>            Extra exclusion glob (repeatable)",
    "      --strict                       Treat stale manifests as a failure",
    "  -h, --help                         Print help"]

/-- What arguments leave that lead to no command. -/
def refused (t : FileTree) : Refusal → Outcome
  | .help => { tree := t, output := lines help, code := 0 }
  | .empty => { tree := t, errors := lines help, code := 2 }
  | .wrong e =>
      { tree := t
        errors := lines ["error: " ++ e.message, "", "For more information, try '--help'."]
        code := 2 }

/-- Run a command. -/
def runCommand (w : World) : Command → Outcome
  | ⟨.status, o⟩ => attempt w o .status
  | ⟨.update, o⟩ => attempt w o (.update o.kinds)
  | ⟨.create, o⟩ => attempt w o .create
  | ⟨.version, _⟩ => { tree := w.tree, output := lines [s!"cartograph v{version}"], code := 0 }

/-- Run the command that the arguments name. -/
def run (w : World) (arguments : List String) : Outcome :=
  match parse arguments with
  | .error r => refused w.tree r
  | .ok command => runCommand { w with «variables» := w.variables.enterNearest w.tree } command

end Gazetteer.CommandLine
