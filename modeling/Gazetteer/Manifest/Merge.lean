import Gazetteer.Manifest.Document

/-!
# The next version of a manifest

`merge` replaces the automatic region of a manifest and keeps its manual region.  A manifest that cannot be
read counts as absent: the new one starts at version one.
-/

namespace Gazetteer

set_option autoImplicit false

/-- The next version of a manifest, and what became of the previous one. -/
structure MergeOutcome where
  document : Document
  /-- Why the previous manifest could not be read, if that is so. -/
  recovered : Option String
  /-- Automatic keys of the previous manifest that the new one lacks. -/
  dropped : List String

/-- The document that replaces `prior`. -/
def merge (prior : Prior) (fresh : AutoRegion) (changes : UInt64) (now : Time.Instant) :
    MergeOutcome :=
  let next (version : UInt64) (manual : ManualRegion) : Document :=
    { metadata := ⟨now, version, changes, true⟩, auto := fresh, manual, ignored := [] }
  match prior with
  | .missing => ⟨next 1 .empty, none, []⟩
  | .corrupt reason _ => ⟨next 1 .empty, some reason, []⟩
  | .loaded existing =>
      ⟨next (existing.metadata.version + 1) existing.manual, none,
        existing.auto.keys.filter fun key => !fresh.members.contains key⟩

end Gazetteer
