import Gazetteer.Ordered.SortedSet

/-!
# Key indexes

A key index says which items a manifest documents: to each file belongs the set of its keys.  Two indexes
are compared by the pairs of file and key in them: `Coverage.between` counts the known pairs that are
documented, `KeyIndex.delta` those that only one of the two holds.
-/

namespace Gazetteer

set_option autoImplicit false

/-- The sum of some numbers. -/
def sumOf (ns : List Nat) : Nat := ns.foldl (· + ·) 0

/-- Keys by the file they belong to. -/
abbrev KeyIndex := SortedMap String (SortedSet String)

namespace KeyIndex

/-- The file of what belongs to the repository as a whole. -/
def repositoryScope : String := ""

/-- Number of keys in all files. -/
def count (index : KeyIndex) : Nat := sumOf (index.values.map (·.size))

/-- Add a key to a file. -/
def add (index : KeyIndex) (file key : String) : KeyIndex :=
  index.alter file fun keys => (keys.getD ∅).insert key

/-- The pairs of file and key, in the order of the files. -/
def pairs (index : KeyIndex) : List (String × String) :=
  index.entries.flatMap fun (file, keys) => keys.toList.map fun key => (file, key)

/-- Whether a file has a key. -/
def holds (index : KeyIndex) (file key : String) : Bool :=
  match index.get? file with
  | some keys => keys.contains key
  | none => false

/-- Number of pairs of file and key that exactly one of the indexes holds. -/
def delta (previous fresh : KeyIndex) : Nat :=
  (previous.pairs.filter fun (file, key) => !fresh.holds file key).length +
    (fresh.pairs.filter fun (file, key) => !previous.holds file key).length

end KeyIndex

end Gazetteer
