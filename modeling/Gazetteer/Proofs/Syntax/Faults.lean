import Gazetteer.Outline.Extraction
import Mathlib.Data.List.Basic

/-!
# The first error in a tree

The search for an error goes down into flagged trees only.  If the flags tell where errors are, what it passes over has
none (`Syntax.Place.passes`), so what it finds is the first error of the whole tree in the order of the text, and it
finds one in every flagged tree (`Outline.finds_first`).
-/

namespace Gazetteer

set_option autoImplicit false

namespace Syntax

/-- Whether a tree is an error or something missing. -/
def Tree.isFaulty (t : Tree) : Bool := t.label.faulty

/-- The flag of every tree in a tree tells whether an error is in it. -/
def Tree.WellFlagged (t : Tree) : Prop :=
  ∀ u ∈ t.preorder, u.label.flagged = true ↔ ∃ v ∈ u.preorder, v.isFaulty = true

instance (t : Tree) : Decidable t.WellFlagged :=
  inferInstanceAs (Decidable (∀ u ∈ t.preorder, u.label.flagged = true ↔ ∃ v ∈ u.preorder, v.isFaulty = true))

theorem Tree.preorder_eq_cons (t : Tree) : ∃ inside, t.preorder = t :: inside := by
  cases t <;> exact ⟨_, rfl⟩

theorem Tree.self_mem_preorder (t : Tree) : t ∈ t.preorder := by
  obtain ⟨inside, first⟩ := t.preorder_eq_cons
  exact first ▸ List.mem_cons_self

namespace Place

/-- No tree without a flag that lies ahead has an error in it. -/
def Told (p : Place) : Prop :=
  ∀ u ∈ p.ahead, u.label.flagged = false → ∀ v ∈ u.preorder, v.isFaulty = false

theorem tree_mem_ahead (p : Place) : p.tree ∈ p.ahead := List.mem_append_left _ p.tree.self_mem_preorder

/-- What a step passes over has no error. -/
theorem passes {p : Place} (told : p.Told) (sound : p.tree.isFaulty = false) :
    ∃ passed, p.ahead = passed ++ (p.next?.map ahead).getD [] ∧ ∀ u ∈ passed, u.isFaulty = false := by
  obtain inside | ⟨unflagged, behind⟩ := ahead_eq p
  · exact ⟨[p.tree], inside, List.forall_mem_singleton.2 sound⟩
  · exact ⟨p.tree.preorder, behind, told p.tree p.tree_mem_ahead unflagged⟩

theorem told_next {p q : Place} (told : p.Told) (sound : p.tree.isFaulty = false) (step : p.next? = some q) : q.Told := by
  obtain ⟨passed, split, -⟩ := passes told sound
  rw [step] at split
  exact fun u member => told u (split ▸ List.mem_append_right passed member)

theorem find?_ahead {p : Place} (told : p.Told) (sound : p.tree.isFaulty = false) :
    p.ahead.find? Tree.isFaulty = ((p.next?.map ahead).getD []).find? Tree.isFaulty := by
  obtain ⟨passed, split, free⟩ := passes told sound
  have none : passed.find? Tree.isFaulty = none := by
    refine List.find?_eq_none.2 fun u member => ?_
    rw [free u member]
    exact Bool.false_ne_true
  rw [split, List.find?_append, none, Option.none_or]

/-- The search finds the first error that lies ahead. -/
theorem faultLine?_eq {p : Place} (told : p.Told) :
    p.faultLine? = (p.ahead.find? Tree.isFaulty).map Tree.line := by
  -- all that lies behind is free of errors, so only what lies ahead counts
  fun_induction faultLine? p with
  | case1 p faulty =>
    have faulty : p.tree.isFaulty = true := faulty
    obtain ⟨inside, first⟩ := p.tree.preorder_eq_cons
    rw [ahead, first, List.cons_append, List.find?_cons_of_pos faulty, Option.map_some]
  | case2 p sound q step ih =>
    have sound : p.tree.isFaulty = false := Bool.eq_false_iff.2 sound
    rw [ih (told_next told sound step), find?_ahead told sound, step]
    rfl
  | case3 p sound step =>
    rw [find?_ahead told (Bool.eq_false_iff.2 sound), step]
    rfl

end Place

namespace Tree

variable {t : Tree}

/-- In a tree whose flags tell where errors are, the search finds the first one. -/
theorem faultLine?_of_wellFlagged (told : t.WellFlagged) : t.faultLine? = (t.preorder.find? isFaulty).map line := by
  have whole : Place.ahead { tree := t } = t.preorder := List.append_nil _
  rw [faultLine?, Place.faultLine?_eq, whole]
  intro u member unflagged v inside
  rw [whole] at member
  cases faulty : v.isFaulty with
  | false => rfl
  | true => exact absurd ((told u member).2 ⟨v, inside, faulty⟩) (Bool.eq_false_iff.1 unflagged)

/-- A flagged tree has a first error. -/
theorem exists_first_of_flagged (told : t.WellFlagged) (flagged : t.label.flagged = true) :
    ∃ before u behind, t.preorder = before ++ u :: behind ∧ (∀ v ∈ before, v.isFaulty = false) ∧ u.isFaulty = true ∧
      t.faultLine? = some u.line := by
  obtain ⟨v, inside, faulty⟩ := (told t t.self_mem_preorder).1 flagged
  obtain ⟨u, first⟩ := Option.isSome_iff_exists.1 (List.find?_isSome.2 ⟨v, inside, faulty⟩)
  obtain ⟨found, before, behind, split, sound⟩ := List.find?_eq_some_iff_append.1 first
  refine ⟨before, u, behind, split, fun v member => ?_, found, ?_⟩
  · simpa using sound v member
  · rw [faultLine?_of_wellFlagged told, first, Option.map_some]

theorem sound_of_unflagged (told : t.WellFlagged) (unflagged : t.label.flagged = false) :
    ∀ u ∈ t.preorder, u.isFaulty = false := by
  intro u inside
  rw [Bool.eq_false_iff]
  exact fun faulty => Bool.eq_false_iff.1 unflagged ((told t t.self_mem_preorder).2 ⟨u, inside, faulty⟩)

theorem faultLine?_eq_none_iff (told : t.WellFlagged) : t.faultLine? = none ↔ t.label.flagged = false := by
  constructor
  · intro none
    rw [Bool.eq_false_iff]
    intro flagged
    obtain ⟨-, u, -, -, -, -, found⟩ := exists_first_of_flagged told flagged
    rw [none] at found
    cases found
  · intro unflagged
    rw [faultLine?_of_wellFlagged told, List.find?_eq_none.2, Option.map_none]
    exact fun u inside => Bool.eq_false_iff.1 (sound_of_unflagged told unflagged u inside)

/-- As long as a word can hold it, the line of a tree is its row, counted from one. -/
theorem line_of_lt (few : t.label.row + 1 < UInt32.size) : t.line = t.label.row + 1 := Nat.mod_eq_of_lt few

end Tree

end Syntax

namespace Outline

open Syntax (Tree)

/-- What is told of the errors in a tree. -/
structure Finds (t : Tree) : Prop where
  /-- The search finds the first error of the whole tree. -/
  first : t.faultLine? = (t.preorder.find? Tree.isFaulty).map Tree.line
  none : t.faultLine? = none ↔ t.label.flagged = false
  accepted : t.label.flagged = false → checked t = .ok t ∧ ∀ u ∈ t.preorder, u.isFaulty = false
  /-- A flagged tree is refused with the line of its first error. -/
  refused : t.label.flagged = true → ∃ before u behind, t.preorder = before ++ u :: behind ∧
    (∀ v ∈ before, v.isFaulty = false) ∧ u.isFaulty = true ∧ checked t = .error (.syntaxAt u.line)
  line : ∀ u ∈ t.preorder, u.label.row + 1 < UInt32.size → u.line = u.label.row + 1

/-- If the flags of a tree tell where errors are, it is refused with the line of its first error, or it has none. -/
theorem finds_first {t : Tree} (told : t.WellFlagged) : Finds t where
  first := Tree.faultLine?_of_wellFlagged told
  none := Tree.faultLine?_eq_none_iff told
  accepted unflagged := by
    refine ⟨?_, Tree.sound_of_unflagged told unflagged⟩
    rw [checked, unflagged, if_neg Bool.false_ne_true]
  refused flagged := by
    obtain ⟨before, u, behind, split, sound, faulty, found⟩ := Tree.exists_first_of_flagged told flagged
    refine ⟨before, u, behind, split, sound, faulty, ?_⟩
    rw [checked, flagged, if_pos rfl, found, Option.getD_some]
  line _ _ few := Tree.line_of_lt few

namespace Sample

/-- A token of a program. -/
def token (row : Nat) (text : String) : Tree := .leaf { kind := .identifier, row } "" text

/-- A token that is missing. -/
def missing (row : Nat) : Tree := .leaf { kind := .word, row, faulty := true, flagged := true } "" ""

/-- A program with a sound statement, one in which something is missing deep inside, and an error at its end. -/
def broken : Tree :=
  .node { kind := .program, row := 0, flagged := true }
    [.node { kind := .expressionStatement, row := 0 } [token 0 "a"],
      .node { kind := .functionDeclaration, row := 1, flagged := true }
        [token 1 "f", .node { kind := .other, row := 2, flagged := true } [token 2 "x", missing 3]],
      .leaf { kind := .error, row := 5, faulty := true, flagged := true } "" "?"]

end Sample

open Sample in
/-- The missing token comes before the error, though it lies deeper. -/
theorem finds_first_missing :
    broken.WellFlagged ∧ broken.preorder.find? Tree.isFaulty = some (missing 3) ∧ broken.faultLine? = some 4 ∧
      checked broken = .error (.syntaxAt 4) := by
  have told : broken.WellFlagged := by decide +kernel
  have finds := finds_first told
  have first : broken.preorder.find? Tree.isFaulty = some (missing 3) := by rfl
  have line : broken.faultLine? = some 4 := by
    rw [finds.first, first]
    rfl
  refine ⟨told, first, line, ?_⟩
  rw [checked, line]
  rfl

end Outline

end Gazetteer
