import Gazetteer.History.Log
import Gazetteer.Project.Survey
import Gazetteer.Upkeep.Report

/-!
# What a run goes by

A run loads the manifests, surveys the repository and asks once for its history, back to the oldest manifest.  From
these follow the number of changes since a manifest was written and how it stands.
-/

namespace Gazetteer

set_option autoImplicit false

/-- The history after a time, if there is one. -/
abbrev History := Time.Instant → Option ChangeLog

/-- What is known when manifests are written or assessed. -/
structure Analysis where
  survey : Survey
  /-- When history was asked for, if it was. -/
  asked : Option Time.Instant
  log : Option ChangeLog
  deriving Repr

/-- A kind with what is found where its manifest belongs. -/
abbrev Found := Kind × Prior

/-- What is found for some kinds. -/
def Store.loadAll (s : Store) (t : FileTree) (kinds : List Kind) : List Found :=
  kinds.map fun k => (k, s.load t k)

/-- The earlier of two times. -/
def Time.Instant.earlier (a b : Time.Instant) : Time.Instant := if b.before a then b else a

/-- When the oldest of some manifests was written. -/
def oldest? (found : List Found) : Option Time.Instant :=
  match found.filterMap fun (_, prior) => prior.document?.map (·.metadata.lastUpdated) with
  | [] => none
  | t :: ts => some (ts.foldl Time.Instant.earlier t)

/-- Survey a repository and ask for its history. -/
def Analysis.make (c : ScanContext) (t : FileTree) (history : History) (found : List Found) :
    Analysis :=
  let asked := oldest? found
  ⟨Survey.take c t, asked, asked.bind history⟩

/-- Whether manifests depend on a path: a manifest of dependencies, or a source file that is not left out. -/
def ScanContext.concerns (c : ScanContext) (path : String) : Bool :=
  path = Package.fileName || path = Declared.cargoFile || (c.isSource path && !c.isExcluded path false)

/-- The changes after a time to paths that manifests depend on. -/
def relevantChanges (c : ScanContext) (log : ChangeLog) (t : Time.Instant) : ChangeSet :=
  (log.since t).keep c.concerns

/-- How many changes led to a new version: changed paths where history tells them, otherwise items that differ. -/
def changeCount (c : ScanContext) (log : Option ChangeLog) (kind : Kind) (prior : Prior)
    (known : KeyIndex) : UInt64 :=
  .ofNat <|
    match prior, log with
    | .loaded d, some log => (relevantChanges c log d.metadata.lastUpdated).size
    | .loaded d, none => ((d.auto.keyIndex kind).toOption.getD ∅).delta known
    | _, _ => KeyIndex.delta ∅ known

/-- Whether an index has items for a file. -/
def KeyIndex.covers (index : KeyIndex) (file : String) : Bool :=
  match index.get? file with
  | some keys => !keys.isEmpty
  | none => false

/-- Enter the changes of a window into an assessment. -/
def Assessment.withChanges (a : Assessment) (changes : ChangeSet) (known documented : KeyIndex) :
    Assessment :=
  { a with
    added := changes.having .added
    modified := changes.having .modified
    deleted := changes.having .deleted
    missing := changes.touched.filter fun path => known.covers path && !documented.covers path
    orphaned := (changes.having .deleted).filter documented.covers }

/-- Why a manifest is stale whose assessment is complete but for its standing. -/
def Assessment.staleReasons (a : Assessment) (limit days : Int) : List StaleReason :=
  (if a.missing.isEmpty then [] else [.missingItems a.missing.length]) ++
    (if a.orphaned.isEmpty then [] else [.orphanedItems a.orphaned.length]) ++
    (if limit < days then [.age days] else [])

/-- How a manifest that was read stands. -/
def assessDocument (c : ScanContext) (log : Option ChangeLog) (now : Time.Instant)
    (known : KeyIndex) (kind : Kind) (d : Document) : Assessment :=
  let a : Assessment :=
    { kind, standing := .missing, coverage := .of 0 known.count, version := some d.metadata.version }
  match d.auto.keyIndex kind with
  | .error e => { a with standing := .stale [.unreadable e.message] }
  | .ok documented =>
      let a := { a with coverage := .between known documented }
      let a := match log with
        | some log =>
            a.withChanges (relevantChanges c log d.metadata.lastUpdated) known documented
        | none => a
      let days := d.metadata.lastUpdated.daysUntil now
      { a with days := some days, standing := .ofReasons (a.staleReasons c.staleAfterDays days) }

/-- How what is found for a kind stands. -/
def assess (c : ScanContext) (analysis : Analysis) (now : Time.Instant) (found : Found) :
    Assessment :=
  let (kind, prior) := found
  let known := analysis.survey.keyIndex kind
  match prior with
  | .missing => { kind, standing := .missing, coverage := .of 0 known.count }
  | .corrupt reason _ =>
      { kind, standing := .stale [.unreadable reason], coverage := .of 0 known.count }
  | .loaded d => assessDocument c analysis.log now known kind d

end Gazetteer
