import Gazetteer.Ordered.SortedMap

/-!
# Sets in growing order

`SortedSet α` is a finite set, held as the strictly growing list of its elements.
-/

namespace Gazetteer

set_option autoImplicit false

/-- A finite set as the strictly growing list of its elements. -/
structure SortedSet (α : Type) [Ord α] where
  entries : SortedMap α Unit
  deriving DecidableEq

namespace SortedSet

variable {α : Type} [Ord α]

/-- The set without elements. -/
def empty : SortedSet α := ⟨∅⟩

instance : EmptyCollection (SortedSet α) := ⟨empty⟩
instance : Inhabited (SortedSet α) := ⟨empty⟩

/-- The elements in growing order. -/
def toList (s : SortedSet α) : List α := s.entries.keys

instance [Repr α] : Repr (SortedSet α) := ⟨fun s n => reprPrec s.toList n⟩

/-- Whether an element is in the set. -/
def contains (s : SortedSet α) (a : α) : Bool := s.entries.contains a

/-- Number of elements. -/
def size (s : SortedSet α) : Nat := s.entries.size

/-- Whether there is no element. -/
def isEmpty (s : SortedSet α) : Bool := s.entries.isEmpty

/-- The elements that pass a test. -/
def filter (p : α → Bool) (s : SortedSet α) : SortedSet α := ⟨s.entries.filter fun a _ => p a⟩

/-- The elements of both sets. -/
def intersection (s t : SortedSet α) : SortedSet α := s.filter t.contains

variable [Std.TransOrd α] [Std.LawfulEqOrd α]

/-- Add an element. -/
def insert (s : SortedSet α) (a : α) : SortedSet α := ⟨s.entries.insert a ()⟩

/-- The elements of a list, each once. -/
def ofList (xs : List α) : SortedSet α := xs.foldl insert empty

end SortedSet

end Gazetteer
