import Gazetteer.Ordered.SortedMap

/-!
# Changes to paths

A path is added, modified or deleted.  The changes to one path over a window have a net effect, which compares
what is there at its end with what was there at its start (`Net.after`).
-/

namespace Gazetteer

set_option autoImplicit false

/-- What happens to a path. -/
inductive Change
  | added
  | modified
  | deleted
  deriving Repr, DecidableEq

/-- The net effect of changes to a path; `none` if the path is neither there before nor after them. -/
abbrev Net := Option Change

namespace Net

/-- The net effect of a change behind others, which may be none at all. -/
def after : Option Net → Change → Net
  | none, c => some c
  | some none, _ => some .added
  | some (some .added), .deleted => none
  | some (some .added), _ => some .added
  | some (some .deleted), .deleted => some .deleted
  | some (some .deleted), _ => some .modified
  | some (some .modified), .deleted => some .deleted
  | some (some .modified), _ => some .modified

end Net

/-- The paths that changed over a window, with the net effect on each. -/
structure ChangeSet where
  paths : SortedMap String Change
  deriving Repr, DecidableEq

namespace ChangeSet

/-- Number of changed paths. -/
def size (s : ChangeSet) : Nat := s.paths.size

/-- The paths with a given net effect. -/
def having (s : ChangeSet) (c : Change) : List String := (s.paths.filter fun _ d => d = c).keys

/-- The changed paths that are there at the end. -/
def touched (s : ChangeSet) : List String := (s.paths.filter fun _ c => c ≠ .deleted).keys

/-- The changes to paths that pass a test. -/
def keep (p : String → Bool) (s : ChangeSet) : ChangeSet := ⟨s.paths.filter fun path _ => p path⟩

/-- The net effect of changes in the order in which they happened. -/
def ofChanges (changes : List (Change × String)) : ChangeSet :=
  let net : SortedMap String Net :=
    changes.foldl (fun net (c, path) => net.alter path fun before => Net.after before c) ∅
  ⟨.ofList (net.entries.filterMap fun (path, n) => n.map fun c => (path, c))⟩

end ChangeSet

end Gazetteer
