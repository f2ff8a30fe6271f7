import Gazetteer.Upkeep.Report

/-!
# Reports for people

A report is a list of lines.  Where a terminal shows them, parts of a line are set off by a style; elsewhere all
text is plain.
-/

namespace Gazetteer.CommandLine

set_option autoImplicit false

/-- How a part of a line is set off. -/
inductive Style
  | dim
  | green
  | yellow
  | boldGreen
  | boldYellow
  | boldRed
  deriving Repr, DecidableEq

/-- The parameters of a style on a terminal. -/
def Style.code : Style → String
  | .dim => "2"
  | .green => "32"
  | .yellow => "33"
  | .boldGreen => "1;32"
  | .boldYellow => "1;33"
  | .boldRed => "1;31"

/-- Fill a text with blanks at its end. -/
def padEnd (width : Nat) (s : String) : String :=
  s ++ String.ofList (List.replicate (width - s.length) ' ')

/-- Fill a text with blanks at its front. -/
def padStart (width : Nat) (s : String) : String :=
  String.ofList (List.replicate (width - s.length) ' ') ++ s

namespace Display

/-- Set a text off, if styles are shown. -/
def paint (styled : Bool) (style : Style) (s : String) : String :=
  if styled then "\x1b[" ++ style.code ++ "m" ++ s ++ "\x1b[0m" else s

/-- Width of a coverage bar. -/
def barWidth : Nat := 20

/-- Number of paths that are listed at most. -/
def listedPaths : Nat := 10

/-- A coverage as a bar, in percent and in numbers. -/
def coverage (c : Coverage) : String :=
  c.bar barWidth ++ " " ++ padStart 3 (toString c.percent) ++ s!"% ({c.documented}/{c.total})"

/-- The column of a kind. -/
def kind (k : Kind) : String := "  " ++ padEnd 12 k.slug

/-- Paths under a label, up to a limit. -/
def paths (styled : Bool) (label : String) (ps : List String) : List String :=
  ((ps.take listedPaths).map fun p => "      " ++ paint styled .dim (label ++ ":") ++ " " ++ p) ++
    if listedPaths < ps.length then
      ["      " ++ paint styled .dim s!"… and {ps.length - listedPaths} more"]
    else []

/-- The style of a standing. -/
def standingStyle : Standing → Style
  | .current => .boldGreen
  | .stale _ => .boldYellow
  | .missing => .boldRed

/-- One manifest in a report. -/
def assessment (styled : Bool) (a : Assessment) : List String :=
  let version := (a.version.map fun v => s!"v{v}").getD ""
  [String.intercalate "  " [kind a.kind ++ " " ++ coverage a.coverage,
      paint styled (standingStyle a.standing) a.standing.text, paint styled .dim version]] ++
    paths styled "missing" a.missing ++ paths styled "orphaned" a.orphaned

/-- The issues of a report. -/
def issues (styled : Bool) : List Issue → List String
  | [] => []
  | is => "" :: paint styled .boldYellow s!"Issues ({is.length})" :: is.map fun i => "  " ++ i.text

/-- What a look at all manifests found. -/
def status (styled : Bool) (dir : Path) (r : StatusReport) : List String :=
  [paint styled .dim "Manifests in" ++ " " ++ dir.text] ++
    r.manifests.flatMap (assessment styled) ++
    (if !r.historyAvailable && r.manifests.any (·.version.isSome) then
      [paint styled .dim "No version-control history; staleness is based on manifest age only"]
    else []) ++
    issues styled r.issues

/-- One update in a report. -/
def update (styled : Bool) (u : Update) : String :=
  let action :=
    if u.created then paint styled .green (padEnd 8 "created")
    else if u.rebuilt then paint styled .yellow (padEnd 8 "rebuilt")
    else paint styled .green (padEnd 8 "updated")
  kind u.kind ++ " " ++ action ++ " v" ++ padEnd 4 (toString u.version) ++ " " ++
    padStart 4 (toString u.changes) ++ " changes  " ++ coverage u.coverage

/-- What a run that writes manifests did. -/
def refresh (styled : Bool) (r : RefreshReport) : List String :=
  (if r.updated.isEmpty then []
    else [paint styled .dim "Scanned" ++ s!" {r.files} files, {r.symbols} symbols"]) ++
    r.updated.map (update styled) ++ issues styled r.issues

/-- What a run that writes missing manifests did. -/
def create (styled : Bool) (r : RefreshReport) : List String :=
  (if r.updated.isEmpty then [paint styled .dim "All manifests already exist"] else []) ++
    refresh styled r ++
    r.skipped.map fun k => kind k ++ " " ++ paint styled .dim "exists, left untouched"

end Display

end Gazetteer.CommandLine
