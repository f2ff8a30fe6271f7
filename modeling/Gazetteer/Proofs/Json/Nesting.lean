import Gazetteer.Proofs.Json.Value

/-!
# Nesting

How many arrays and objects of a value lie in one another (`Json.nesting`).  A value of whole numbers can be written and
read back where more levels than that may be opened (`writable_of_nesting`).
-/

namespace Gazetteer.Json

set_option autoImplicit false

mutual

/-- The most arrays and objects of a value that lie in one another. -/
def nesting : Json → Nat
  | .array items => nestingItems items + 1
  | .object members => nestingMembers members + 1
  | _ => 0

def nestingItems : List Json → Nat
  | [] => 0
  | item :: items => max (nesting item) (nestingItems items)

def nestingMembers : List (String × Json) → Nat
  | [] => 0
  | (_, value) :: members => max (nesting value) (nestingMembers members)

end

mutual

/-- Whether all numbers in the value are integers of 64 bits, signed or not. -/
def isWhole : Json → Bool
  | .number (.integer k) => Number.inRange k
  | .number (.real _) => false
  | .array items => areWhole items
  | .object members => wholeMembers members
  | _ => true

def areWhole : List Json → Bool
  | [] => true
  | item :: items => isWhole item && areWhole items

def wholeMembers : List (String × Json) → Bool
  | [] => true
  | (_, value) :: members => isWhole value && wholeMembers members

end

theorem nestingMembers_le_iff {members : List (String × Json)} {n : Nat} :
    nestingMembers members ≤ n ↔ ∀ member ∈ members, member.2.nesting ≤ n := by
  induction members with
  | nil => simp [nestingMembers]
  | cons member members ih => simp [nestingMembers, ih]

theorem wholeMembers_iff {members : List (String × Json)} :
    wholeMembers members = true ↔ ∀ member ∈ members, member.2.isWhole = true := by
  induction members with
  | nil => simp [wholeMembers]
  | cons member members ih => simp [wholeMembers, ih]

mutual

theorem integral_of_isWhole (v : Json) (whole : v.isWhole = true) : v.Integral := by
  match v with
  | .null | .bool _ | .string _ | .number (.integer _) => exact trivial
  | .number (.real _) => cases whole
  | .array items => exact integralItems_of_areWhole items whole
  | .object members => exact integralMembers_of_wholeMembers members whole

theorem integralItems_of_areWhole (items : List Json) (whole : areWhole items = true) : IntegralItems items := by
  match items with
  | [] => exact trivial
  | item :: items =>
    obtain ⟨head, tail⟩ := Bool.and_eq_true_iff.1 whole
    exact ⟨integral_of_isWhole item head, integralItems_of_areWhole items tail⟩

theorem integralMembers_of_wholeMembers (members : List (String × Json)) (whole : wholeMembers members = true) :
    IntegralMembers members := by
  match members with
  | [] => exact trivial
  | (_, value) :: members =>
    obtain ⟨head, tail⟩ := Bool.and_eq_true_iff.1 whole
    exact ⟨integral_of_isWhole value head, integralMembers_of_wholeMembers members tail⟩

end

mutual

/-- A value of whole numbers can be written where more levels may be opened than it has. -/
theorem writable_of_nesting (v : Json) {depth : Nat} (whole : v.isWhole = true) (nested : v.nesting < depth) :
    v.Writable depth := by
  match v with
  | .null | .bool _ | .string _ => simp [Writable]
  | .number (.integer k) =>
    rw [Writable]
    exact whole
  | .number (.real _) => cases whole
  | .array items =>
    rw [nesting] at nested
    match depth with
    | depth + 2 =>
      rw [Writable]
      exact writableItems_of_nesting items whole (by omega)
  | .object members =>
    rw [nesting] at nested
    match depth with
    | depth + 2 =>
      rw [Writable]
      exact writableMembers_of_nesting members whole (by omega)

theorem writableItems_of_nesting (items : List Json) {depth : Nat} (whole : areWhole items = true)
    (nested : nestingItems items < depth) : WritableItems items depth := by
  match items with
  | [] => exact trivial
  | item :: items =>
    obtain ⟨first, others⟩ := Bool.and_eq_true_iff.1 whole
    obtain ⟨head, tail⟩ := Nat.max_lt.1 nested
    exact ⟨writable_of_nesting item first head, writableItems_of_nesting items others tail⟩

theorem writableMembers_of_nesting (members : List (String × Json)) {depth : Nat} (whole : wholeMembers members = true)
    (nested : nestingMembers members < depth) : WritableMembers members depth := by
  match members with
  | [] => exact trivial
  | (_, value) :: members =>
    obtain ⟨first, others⟩ := Bool.and_eq_true_iff.1 whole
    obtain ⟨head, tail⟩ := Nat.max_lt.1 nested
    exact ⟨writable_of_nesting value first head, writableMembers_of_nesting members others tail⟩

end

end Gazetteer.Json
