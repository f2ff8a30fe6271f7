import Gazetteer.Ordered.Entries

/-!
# Maps whose entries are in key order

`SortedMap κ ν` is a finite mapping, held as the list of its entries in strictly growing key order.  The
order is part of the type, so a mapping has one representation and listing it needs no further sorting.
-/

namespace Gazetteer

set_option autoImplicit false

/-- A finite mapping as the sorted list of its entries. -/
structure SortedMap (κ ν : Type) [Ord κ] where
  entries : List (κ × ν)
  sorted : Entries.Sorted entries

namespace SortedMap

variable {κ ν : Type} [Ord κ]

@[ext]
theorem ext {m n : SortedMap κ ν} (h : m.entries = n.entries) : m = n := by
  cases m; cases n; simp_all

instance [DecidableEq κ] [DecidableEq ν] : DecidableEq (SortedMap κ ν) := fun m n =>
  decidable_of_iff (m.entries = n.entries) ⟨ext, fun h => h ▸ rfl⟩

/-- The mapping without entries. -/
def empty : SortedMap κ ν := ⟨[], List.Pairwise.nil⟩

instance : EmptyCollection (SortedMap κ ν) := ⟨empty⟩
instance : Inhabited (SortedMap κ ν) := ⟨empty⟩

instance [Repr κ] [Repr ν] : Repr (SortedMap κ ν) := ⟨fun m n => reprPrec m.entries n⟩

/-- The value of a key. -/
def get? (m : SortedMap κ ν) (k : κ) : Option ν := Entries.get? k m.entries

/-- Whether a key has a value. -/
def contains (m : SortedMap κ ν) (k : κ) : Bool := (m.get? k).isSome

/-- The keys in growing order. -/
def keys (m : SortedMap κ ν) : List κ := m.entries.map (·.1)

/-- The values in the order of their keys. -/
def values (m : SortedMap κ ν) : List ν := m.entries.map (·.2)

/-- Number of entries. -/
def size (m : SortedMap κ ν) : Nat := m.entries.length

/-- Whether there is no entry. -/
def isEmpty (m : SortedMap κ ν) : Bool := m.entries.isEmpty

/-- The entries whose key and value pass a test. -/
def filter (p : κ → ν → Bool) (m : SortedMap κ ν) : SortedMap κ ν :=
  ⟨m.entries.filter fun e => p e.1 e.2, List.Pairwise.sublist List.filter_sublist m.sorted⟩

/-- The mapping without a key. -/
def remove (m : SortedMap κ ν) (k : κ) : SortedMap κ ν :=
  ⟨Entries.remove k m.entries, Entries.sorted_remove m.sorted⟩

/-- Change every value. -/
def map {μ : Type} (f : κ → ν → μ) (m : SortedMap κ ν) : SortedMap κ μ :=
  ⟨m.entries.map fun e => (e.1, f e.1 e.2), by
    have h := m.sorted
    simp only [Entries.Sorted, List.pairwise_map] at h ⊢
    exact h⟩

variable [Std.TransOrd κ] [Std.LawfulEqOrd κ]

/-- Give a key a value. -/
def insert (m : SortedMap κ ν) (k : κ) (v : ν) : SortedMap κ ν :=
  ⟨Entries.put k v m.entries, Entries.sorted_put m.sorted⟩

/-- Change the value of a key, which is `none` where the key has none yet. -/
def alter (m : SortedMap κ ν) (k : κ) (f : Option ν → ν) : SortedMap κ ν :=
  m.insert k (f (m.get? k))

/-- Enter pairs one after the other; of equal keys the last stays. -/
def ofList (xs : List (κ × ν)) : SortedMap κ ν := xs.foldl (fun m e => m.insert e.1 e.2) empty

@[simp]
theorem get?_insert_self (m : SortedMap κ ν) (k : κ) (v : ν) : (m.insert k v).get? k = some v :=
  Entries.get?_put_self k v m.entries

end SortedMap

end Gazetteer
