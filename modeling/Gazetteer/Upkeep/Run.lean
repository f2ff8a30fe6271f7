import Gazetteer.Manifest.Markdown
import Gazetteer.Manifest.Merge
import Gazetteer.Upkeep.Analysis

/-!
# Runs

A run takes a file tree and leaves one.  `refresh` brings the manifests of the given kinds up to date, `create`
writes those that are missing, `status` only looks.  A run that writes settles all files before it replaces the
first one; a problem in a file or a manifest is an issue, and only a directory that cannot be written fails the run.
-/

namespace Gazetteer

set_option autoImplicit false

/-- How far a run has come. -/
inductive Phase
  /-- Nothing is to be written. -/
  | idle
  /-- All manifests are written. -/
  | persisted
  /-- A manifest could not be written. -/
  | failed
  deriving Repr, DecidableEq

/-- The name of a phase. -/
def Phase.name : Phase → String
  | .idle => "idle"
  | .persisted => "persisted"
  | .failed => "failed"

/-- What a run leaves. -/
structure Run (α : Type) where
  tree : FileTree
  phase : Phase
  /-- When history was asked for, if it was. -/
  asked : Option Time.Instant
  result : α

namespace Run

/-- The store of a context. -/
def store (c : ScanContext) : Store := ⟨c.manifestDir⟩

/-- The issues of a survey. -/
def surveyIssues (s : Survey) : List Issue :=
  (s.scanIssues.map fun i => ⟨.scan, i.path, i.reason⟩) ++
    (s.extracts.complaints.map fun p => ⟨.extraction, p.file, p.reason⟩) ++
    s.declared.complaints.map fun p => ⟨.dependencies, p.file, p.reason⟩

/-- The issue of reserved keys that will not be kept. -/
def ignoredIssue (found : Found) : List Issue :=
  match found.2.document? with
  | some d =>
      if d.ignored.isEmpty then []
      else [⟨.ignoredKeys, found.1.slug, "unrecognised reserved keys are not preserved: " ++
        String.intercalate ", " d.ignored ++ "; move them under '_manual'"⟩]
  | none => []

/-- The bytes of a manifest that could not be read, if there are any. -/
def backupOf : Prior → Option (List UInt8)
  | .corrupt _ raw => if raw.isEmpty then none else some raw
  | _ => none

/-- The issue of a manifest that is rebuilt. -/
def rebuiltIssue (s : Store) (found : Found) (outcome : MergeOutcome) : List Issue :=
  match outcome.recovered with
  | some reason =>
      let saved := match backupOf found.2 with
        | some _ => s!"; previous content saved to {(s.backupPath found.1).text}"
        | none => ""
      [⟨.corruptManifest, (s.path found.1).text, s!"rebuilt from scratch ({reason})" ++ saved⟩]
  | none => []

/-- The issue of keys that are not in the new version. -/
def droppedIssue (kind : Kind) (outcome : MergeOutcome) : List Issue :=
  if outcome.dropped.isEmpty then []
  else [⟨.droppedKeys, kind.slug, "hand-edited keys outside '_manual' were replaced: " ++
    String.intercalate ", " outcome.dropped⟩]

/-- One manifest that is settled but not yet written. -/
structure Settled where
  staged : Staged
  update : Update
  issues : List Issue

/-- Settle the next version of one manifest. -/
def settle (c : ScanContext) (t : FileTree) (analysis : Analysis) (now : Time.Instant)
    (found : Found) : Except ManifestError Settled := do
  let (kind, prior) := found
  let s := store c
  let content := analysis.survey.content kind
  let known := content.keyIndex
  let changes := changeCount c analysis.log kind prior known
  let outcome := merge prior (← AutoRegion.ofContent content) changes now
  let markdown ← Markdown.render kind outcome.document
  let staged ← s.stage t kind outcome.document markdown (backupOf prior)
  let documented ← outcome.document.auto.keyIndex kind
  return {
    staged
    update :=
      { kind
        version := outcome.document.metadata.version
        changes
        coverage := .between known documented
        path := s.path kind
        created := !prior.isPresent
        rebuilt := outcome.recovered.isSome }
    issues := rebuiltIssue s found outcome ++ ignoredIssue found ++ droppedIssue kind outcome }

/-- Write the manifests of what was found. -/
def persist (c : ScanContext) (t : FileTree) (analysis : Analysis) (now : Time.Instant)
    (found : List Found) : FileTree × Except RunError (List Settled) :=
  match (store c).prepare t with
  | (t, .error e) => (t, .error (.manifestDir c.manifestDir e))
  | (t, .ok ()) =>
      match found.mapM (settle c t analysis now) with
      | .error e => (t, .error (.persist e))
      | .ok settled =>
          match Store.commit t (settled.map (·.staged)) with
          | (t, .error e) => (t, .error (.persist e))
          | (t, .ok _) => (t, .ok settled)

/-- Write the manifests of what was found, and leave others alone. -/
def write (c : ScanContext) (t : FileTree) (history : History) (now : Time.Instant)
    (found : List Found) (skipped : List Kind) : Run (Except RunError RefreshReport) :=
  if found.isEmpty then ⟨t, .persisted, none, .ok { skipped }⟩
  else
    let analysis := Analysis.make c t history found
    match persist c t analysis now found with
    | (t, .error e) => ⟨t, .failed, analysis.asked, .error e⟩
    | (t, .ok settled) =>
        ⟨t, .persisted, analysis.asked, .ok {
          updated := settled.map (·.update)
          skipped
          files := analysis.survey.files.length
          symbols := analysis.survey.symbolCount
          issues := surveyIssues analysis.survey ++ settled.flatMap (·.issues) }⟩

/-- Bring the manifests of some kinds up to date. -/
def refresh (c : ScanContext) (t : FileTree) (history : History) (now : Time.Instant)
    (kinds : List Kind) : Run (Except RunError RefreshReport) :=
  write c t history now ((store c).loadAll t kinds) []

/-- Write the manifests that are missing; one that is there is left alone, readable or not. -/
def create (c : ScanContext) (t : FileTree) (history : History) (now : Time.Instant) :
    Run (Except RunError RefreshReport) :=
  let (present, missing) := ((store c).loadAll t Kind.all).partition (·.2.isPresent)
  write c t history now missing (present.map (·.1))

/-- The issue of a manifest that cannot be read. -/
def corruptIssue (s : Store) (found : Found) : List Issue :=
  match found.2 with
  | .corrupt reason _ => [⟨.corruptManifest, (s.path found.1).text, reason⟩]
  | _ => []

/-- Hold every manifest against the repository. -/
def status (c : ScanContext) (t : FileTree) (history : History) (now : Time.Instant) :
    Run StatusReport :=
  let s := store c
  let found := s.loadAll t Kind.all
  let analysis := Analysis.make c t history found
  ⟨t, .idle, analysis.asked, {
    manifests := found.map (assess c analysis now)
    historyAvailable := analysis.log.isSome
    issues := surveyIssues analysis.survey ++
      found.flatMap fun f => corruptIssue s f ++ ignoredIssue f }⟩

end Run

end Gazetteer
