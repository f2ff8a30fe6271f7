import Gazetteer.Outline.Extraction
import Mathlib.Data.List.Flatten

/-!
# Sums of contributions

The outline of a program is the sum over its statements.  Every part of it puts the parts of the statements one after
the other (`Additive.program`), so what is in a part of the whole is in that part of some statement
(`Additive.mem_program`).
-/

namespace Gazetteer.Outline

set_option autoImplicit false

open Syntax (Tree)

/-- A part of contributions is put together as they are added. -/
def Additive {β : Type} (part : Contribution → List β) : Prop := ∀ a b, part (a ++ b) = part a ++ part b

namespace Additive

theorem declarations : Additive Contribution.declarations := fun _ _ => rfl

theorem locals : Additive Contribution.locals := fun _ _ => rfl

theorem imported : Additive Contribution.imported := fun _ _ => rfl

theorem exportedLocals : Additive Contribution.exportedLocals := fun _ _ => rfl

theorem exports : Additive Contribution.exports := fun _ _ => rfl

theorem pending : Additive Contribution.pending := fun _ _ => rfl

theorem specifiers : Additive Contribution.specifiers := fun _ _ => rfl

variable {β : Type} {part : Contribution → List β}

theorem empty (additive : Additive part) : part {} = [] := by
  have twice : part {} = part {} ++ part {} := additive {} {}
  exact List.self_eq_append_right.1 twice

theorem foldl (additive : Additive part) (cs : List Contribution) (start : Contribution) :
    part (cs.foldl (· ++ ·) start) = part start ++ cs.flatMap part := by
  induction cs generalizing start with
  | nil => exact (List.append_nil _).symm
  | cons c cs ih => rw [List.foldl_cons, ih, additive, List.flatMap_cons, List.append_assoc]

theorem sum (additive : Additive part) (cs : List Contribution) :
    part (cs.foldl (· ++ ·) {}) = cs.flatMap part := by
  rw [additive.foldl, additive.empty, List.nil_append]

/-- A part of a program are the parts of its statements, in their order. -/
theorem program (additive : Additive part) (root : Tree) :
    part (programContribution root) = root.namedChildren.flatMap fun t => part (contribution t) := by
  rw [programContribution, additive.sum, List.flatMap_map]

theorem mem_program (additive : Additive part) {root : Tree} {b : β} :
    b ∈ part (programContribution root) ↔ ∃ t ∈ root.namedChildren, b ∈ part (contribution t) := by
  rw [additive.program, List.mem_flatMap]

end Additive

end Gazetteer.Outline
