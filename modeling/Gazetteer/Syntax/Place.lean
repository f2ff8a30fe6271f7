import Gazetteer.Syntax.Tree

/-!
# Places in a tree

A place is a tree together with what stands around it in a larger one, so that from a place one can go to the first
child, to the next sibling and to the tree around it.  `Place.faultLine?` looks for the first error by such steps.  It
goes down into flagged trees only, passes over the others, and climbs where no sibling is left.  What lies ahead of a
place (`Place.ahead`) gets shorter with every step, so the search ends.
-/

namespace Gazetteer.Syntax

set_option autoImplicit false

/-- What stands around a tree within the next larger one. -/
structure Surroundings where
  /-- The label of the larger tree. -/
  label : Label
  /-- The siblings in front of the tree, the nearest first. -/
  before : List Tree
  /-- The siblings behind the tree. -/
  behind : List Tree

/-- A tree and what stands around it, the innermost first. Nothing stands around a whole tree. -/
structure Place where
  tree : Tree
  around : List Surroundings := []

namespace Place

/-! ## Steps -/

/-- The first child of the tree. -/
def firstChild? (p : Place) : Option Place :=
  match p.tree with
  | .node l (t :: ts) => some ⟨t, ⟨l, [], ts⟩ :: p.around⟩
  | _ => none

/-- The next sibling of the tree. -/
def nextSibling? (p : Place) : Option Place :=
  match p.around with
  | ⟨l, before, t :: behind⟩ :: around => some ⟨t, ⟨l, p.tree :: before, behind⟩ :: around⟩
  | _ => none

/-- The tree around the tree. -/
def parent? (p : Place) : Option Place :=
  match p.around with
  | ⟨l, before, behind⟩ :: around => some ⟨.node l (before.reverse ++ p.tree :: behind), around⟩
  | [] => none

theorem around_of_parent? {p q : Place} (up : p.parent? = some q) : q.around.length < p.around.length := by
  unfold parent? at up
  split at up
  · rename_i outside
    cases up
    rw [outside]
    exact Nat.lt_succ_self _
  · cases up

/-- The first place behind the tree: its next sibling, or that of the nearest tree around it that has one. -/
def beyond? (p : Place) : Option Place :=
  match p.nextSibling? with
  | some q => some q
  | none =>
      match _ : p.parent? with
      | some q => q.beyond?
      | none => none
  termination_by p.around.length
  decreasing_by exact around_of_parent? ‹_›

/-- Where the search goes from a tree that is no error itself. -/
def next? (p : Place) : Option Place :=
  match if p.tree.label.flagged then p.firstChild? else none with
  | some q => some q
  | none => p.beyond?

/-! ## What lies ahead -/

/-- The trees behind the tree, parents first. -/
def later (p : Place) : List Tree := p.around.flatMap fun s => Tree.preorders s.behind

/-- The tree with all that is in it, and the trees behind it, parents first. -/
def ahead (p : Place) : List Tree := p.tree.preorder ++ p.later

theorem ahead_of_firstChild? {p q : Place} (down : p.firstChild? = some q) : p.ahead = p.tree :: q.ahead := by
  obtain ⟨tree, around⟩ := p
  unfold firstChild? at down
  split at down
  · rename_i l t ts node
    cases down
    cases node
    simp [ahead, later, Tree.preorder, Tree.preorders]
  · cases down

theorem later_of_nextSibling? {p q : Place} (next : p.nextSibling? = some q) : p.later = q.ahead := by
  unfold nextSibling? at next
  split at next
  · rename_i outside
    cases next
    simp [ahead, later, outside, Tree.preorders]
  · cases next

/-- Where no sibling is left, the trees behind are those behind the tree around. -/
theorem later_of_parent? {p q : Place} (last : p.nextSibling? = none) (up : p.parent? = some q) :
    p.later = q.later := by
  unfold parent? at up
  split at up
  · rename_i l before behind around outside
    cases up
    cases behind with
    | nil => simp [later, outside, Tree.preorders]
    | cons t behind => simp [nextSibling?, outside] at last
  · cases up

theorem later_of_top {p : Place} (top : p.parent? = none) : p.later = [] := by
  unfold parent? at top
  split at top
  · cases top
  · rename_i outside
    rw [later, outside, List.flatMap_nil]

/-- Going beyond a tree leaves out nothing behind it. -/
theorem later_eq (p : Place) : p.later = (p.beyond?.map ahead).getD [] := by
  fun_induction beyond? p with
  | case1 p q next => exact later_of_nextSibling? next
  | case2 p last q up ih => rw [later_of_parent? last up, ih]
  | case3 p last top => exact later_of_top top

theorem preorder_of_childless {p : Place} (childless : p.firstChild? = none) : p.tree.preorder = [p.tree] := by
  obtain ⟨tree, around⟩ := p
  match tree with
  | .leaf l lead text => rw [Tree.preorder]
  | .node l [] => rw [Tree.preorder, Tree.preorders]
  | .node l (t :: ts) => cases childless

/-- A step goes from a tree to what is next in the order of the text; only a tree without a flag is passed over with all
that is in it. -/
theorem ahead_eq (p : Place) :
    p.ahead = p.tree :: (p.next?.map ahead).getD [] ∨
      p.tree.label.flagged = false ∧ p.ahead = p.tree.preorder ++ (p.next?.map ahead).getD [] := by
  unfold next?
  cases flagged : p.tree.label.flagged with
  | true =>
    left
    rw [if_pos rfl]
    cases down : p.firstChild? with
    | some q => exact ahead_of_firstChild? down
    | none =>
      rw [ahead, preorder_of_childless down, later_eq]
      rfl
  | false =>
    right
    rw [if_neg Bool.false_ne_true, ahead, later_eq]
    exact ⟨rfl, rfl⟩

theorem ahead_length_of_next? {p q : Place} (step : p.next? = some q) : q.ahead.length < p.ahead.length := by
  have steps := ahead_eq p
  rw [step] at steps
  obtain inside | ⟨-, behind⟩ := steps
  · rw [inside]
    exact Nat.lt_succ_self _
  · have filled : 0 < p.tree.preorder.length := by cases p.tree <;> simp [Tree.preorder]
    rw [behind, List.length_append, Option.map_some, Option.getD_some]
    omega

/-! ## The search -/

/-- The line of the first error from a place on. -/
def faultLine? (p : Place) : Option Nat :=
  if p.tree.label.faulty then some p.tree.line
  else
    match _ : p.next? with
    | some q => q.faultLine?
    | none => none
  termination_by p.ahead.length
  decreasing_by exact ahead_length_of_next? ‹_›

end Place

/-- The line of the first error in a tree. Only flagged trees are searched. -/
def Tree.faultLine? (t : Tree) : Option Nat := Place.faultLine? { tree := t }

end Gazetteer.Syntax
