import Gazetteer.Manifest.Store
import Gazetteer.Project.Dependencies
import Gazetteer.Registry.Coverage

/-!
# What a run reports

A run that writes manifests reports each update, a run that looks at them an assessment of each.  Both report the
problems they met and went on from.
-/

namespace Gazetteer

set_option autoImplicit false

/-- What a problem is about. -/
inductive Topic
  | scan
  | extraction
  | dependencies
  | corruptManifest
  | droppedKeys
  | ignoredKeys
  deriving Repr, DecidableEq

/-- The label of a topic. -/
def Topic.label : Topic → String
  | .scan => "scan"
  | .extraction => "parse"
  | .dependencies => "dependencies"
  | .corruptManifest => "manifest"
  | .droppedKeys => "dropped"
  | .ignoredKeys => "ignored"

/-- A problem that did not end a run. -/
structure Issue where
  topic : Topic
  subject : String
  detail : String
  deriving Repr, DecidableEq

/-- How an issue reads. -/
def Issue.text (i : Issue) : String := s!"[{i.topic.label}] {i.subject}: {i.detail}"

/-- Why a manifest is stale. -/
inductive StaleReason
  | missingItems (n : Nat)
  | orphanedItems (n : Nat)
  | age (days : Int)
  | unreadable (reason : String)
  deriving Repr, DecidableEq

/-- How a reason reads. -/
def StaleReason.text : StaleReason → String
  | .missingItems n => s!"{n} missing items"
  | .orphanedItems n => s!"{n} orphaned items"
  | .age days => s!"{days} days old"
  | .unreadable reason => s!"unreadable: {reason}"

/-- How a manifest stands. -/
inductive Standing
  | current
  | stale (reasons : List StaleReason)
  | missing
  deriving Repr, DecidableEq

namespace Standing

/-- A manifest is current if nothing speaks against it. -/
def ofReasons : List StaleReason → Standing
  | [] => .current
  | reasons => .stale reasons

/-- Why a manifest is stale. -/
def reasons : Standing → List StaleReason
  | .stale reasons => reasons
  | _ => []

/-- Whether a manifest is stale. -/
def isStale : Standing → Bool
  | .stale _ => true
  | _ => false

/-- How a standing reads. -/
def text : Standing → String
  | .current => "CURRENT"
  | .missing => "MISSING"
  | .stale reasons => "STALE(" ++ String.intercalate ", " (reasons.map (·.text)) ++ ")"

end Standing

/-- One manifest held against the repository. -/
structure Assessment where
  kind : Kind
  standing : Standing
  coverage : Coverage
  version : Option UInt64 := none
  /-- Whole days since the last update. -/
  days : Option Int := none
  added : List String := []
  modified : List String := []
  deleted : List String := []
  /-- Files that changed and have items, of which the manifest has none. -/
  missing : List String := []
  /-- Deleted files of which the manifest still has items. -/
  orphaned : List String := []
  deriving Repr

/-- What a look at all manifests found. -/
structure StatusReport where
  manifests : List Assessment
  historyAvailable : Bool
  issues : List Issue
  deriving Repr

namespace StatusReport

/-- Whether a manifest is missing. -/
def anyMissing (r : StatusReport) : Bool := r.manifests.any fun a => a.standing = .missing

/-- Whether a manifest is stale. -/
def anyStale (r : StatusReport) : Bool := r.manifests.any (·.standing.isStale)

/-- Two if a manifest is missing, one if stale manifests count and there is one, else zero. -/
def exitCode (r : StatusReport) (strict : Bool) : Nat :=
  if r.anyMissing then 2 else if strict && r.anyStale then 1 else 0

end StatusReport

/-- One manifest that was written. -/
structure Update where
  kind : Kind
  version : UInt64
  changes : UInt64
  coverage : Coverage
  path : Path
  /-- Whether there was none before. -/
  created : Bool
  /-- Whether the one before could not be read. -/
  rebuilt : Bool
  deriving Repr

/-- What a run that writes manifests did. -/
structure RefreshReport where
  updated : List Update := []
  /-- Manifests that were left alone. -/
  skipped : List Kind := []
  files : Nat := 0
  symbols : Nat := 0
  issues : List Issue := []
  deriving Repr

/-- Why a run that writes manifests failed. -/
inductive RunError
  | manifestDir (dir : Path) (e : FileError)
  | persist (e : ManifestError)
  deriving Repr, DecidableEq

/-- How the error reads. -/
def RunError.message : RunError → String
  | .manifestDir dir e => s!"cannot create manifest directory {dir.text}: {e.message}"
  | .persist e => s!"failed to write manifests: {e.message}"

end Gazetteer
