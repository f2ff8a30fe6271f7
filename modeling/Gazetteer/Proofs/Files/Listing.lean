import Gazetteer.Proofs.Files.Tree

/-!
# Listing a folder

What a folder lists are the names that come next on the way to the entries below it (`FileTree.mem_items`), in order and
each once.  So the files below a folder are those directly in it and those below the folders that it lists
(`FileTree.filesBelow_eq_flatMap`), and a walk that goes from listing to listing meets every file once.
-/

namespace Gazetteer

set_option autoImplicit false

/-- Of related elements those that stay are related and different. -/
theorem pairwise_eraseDups {α : Type} [BEq α] [LawfulBEq α] {R : α → α → Prop} :
    (xs : List α) → xs.Pairwise R → xs.eraseDups.Pairwise fun a b => R a b ∧ a ≠ b
  | [], _ => List.Pairwise.nil
  | a :: rest, related => by
    obtain ⟨head, tail⟩ := List.pairwise_cons.1 related
    rw [List.eraseDups_cons]
    refine List.pairwise_cons.2 ⟨fun b member => ?_, pairwise_eraseDups _ (tail.filter _)⟩
    obtain ⟨inner, other⟩ := List.mem_filter.1 (List.mem_eraseDups.1 member)
    refine ⟨head b inner, fun same => ?_⟩
    rw [same, BEq.rfl] at other
    cases other
  termination_by xs => xs.length
  decreasing_by exact Nat.lt_succ_of_le (List.length_filter_le _ _)

namespace FileTree

variable {t : FileTree} {l : Location} {name : String} {e : Entry} {names : List String} {bytes : List UInt8}

/-! ## Entries below a location -/

theorem mem_entries_iff (filled : l ≠ []) : (l, e) ∈ t.entries.entries ↔ t.get? l = some e := by
  rw [SortedMap.mem_entries_iff, get?, if_neg filled]

theorem compare_append (l xs ys : Location) : compare (l ++ xs) (l ++ ys) = compare xs ys := by
  induction l with
  | nil => rfl
  | cons s l ih =>
    rw [List.cons_append, List.cons_append, List.compare_cons_cons, Std.ReflOrd.compare_self, ih]
    rfl

theorem shown?_eq_some {key : Location} {item : String × Entry} :
    shown? l key e = some item ↔
      ∃ rest, key = l ++ item.1 :: rest ∧ item.2 = if rest.isEmpty then e else .folder := by
  unfold shown?
  constructor
  · intro shown
    split at shown
    · rename_i lead
      obtain ⟨below, rfl⟩ := List.isPrefixOf_iff_prefix.1 lead
      rw [List.drop_left] at shown
      cases below with
      | nil => cases shown
      | cons name rest =>
        cases shown
        exact ⟨rest, rfl, rfl⟩
    · cases shown
  · rintro ⟨rest, rfl, same⟩
    rw [if_pos (List.isPrefixOf_iff_prefix.2 (List.prefix_append l _)), List.drop_left]
    dsimp only
    rw [← same]

/-- A folder lists what is directly in it, and as folders the names that lead further down. -/
theorem mem_items : (name, e) ∈ t.items l ↔
    t.get? (l ++ [name]) = some e ∨
      e = .folder ∧ ∃ rest e', rest ≠ [] ∧ t.get? (l ++ name :: rest) = some e' := by
  rw [items, List.mem_eraseDups, List.mem_filterMap]
  constructor
  · rintro ⟨⟨key, e'⟩, listed, shown⟩
    obtain ⟨rest, rfl, same⟩ := shown?_eq_some.1 shown
    rw [mem_entries_iff (List.append_ne_nil_of_right_ne_nil l (List.cons_ne_nil name rest))] at listed
    cases rest with
    | nil => exact .inl (listed.trans (congrArg some same.symm))
    | cons s rest => exact .inr ⟨same, s :: rest, e', List.cons_ne_nil s rest, listed⟩
  · have filled (rest : List String) : l ++ name :: rest ≠ [] :=
      List.append_ne_nil_of_right_ne_nil l (List.cons_ne_nil name rest)
    rintro (here | ⟨rfl, rest, e', more, below⟩)
    · exact ⟨(l ++ [name], e), (mem_entries_iff (filled [])).2 here, shown?_eq_some.2 ⟨[], rfl, rfl⟩⟩
    · refine ⟨(l ++ name :: rest, e'), (mem_entries_iff (filled rest)).2 below, shown?_eq_some.2 ⟨rest, rfl, ?_⟩⟩
      rw [List.isEmpty_eq_false_iff.2 more]
      rfl

theorem mem_items_file : (name, .file bytes) ∈ t.items l ↔ t.get? (l ++ [name]) = some (.file bytes) := by
  rw [mem_items]
  exact or_iff_left fun folder => nomatch folder.1

/-- What is below a place is listed there by its next name. -/
theorem exists_item (below : t.get? (l ++ name :: names) = some e) : ∃ e', (name, e') ∈ t.items l := by
  cases names with
  | nil => exact ⟨e, mem_items.2 (.inl below)⟩
  | cons s rest => exact ⟨.folder, mem_items.2 (.inr ⟨rfl, s :: rest, e, List.cons_ne_nil s rest, below⟩)⟩

/-- A place is listed, or there is nothing in it. -/
theorem list_cases (t : FileTree) (l : Location) : t.list l = .ok (t.items l) ∨
    t.list l = .error .notFound ∧ t.get? l = none ∧ t.items l = [] := by
  unfold list
  dsimp only
  split
  · rename_i absent
    rw [Bool.and_eq_true, Option.isNone_iff_eq_none, List.isEmpty_iff] at absent
    exact .inr ⟨rfl, absent⟩
  · exact .inl rfl

/-- A folder that is listed can itself be listed. -/
theorem list_of_mem_items (listed : (name, .folder) ∈ t.items l) :
    t.list (l ++ [name]) = .ok (t.items (l ++ [name])) := by
  refine (list_cases t (l ++ [name])).resolve_right ?_
  rintro ⟨-, absent, empty⟩
  obtain here | ⟨-, rest, e, more, below⟩ := mem_items.1 listed
  · rw [absent] at here
    cases here
  · obtain ⟨s, rest, rfl⟩ := List.exists_cons_of_ne_nil more
    rw [List.append_cons] at below
    obtain ⟨e', inner⟩ := exists_item below
    rw [empty] at inner
    cases inner

/-- The file that an entry is below a location, if it is one. -/
def fileBelow? (l : Location) (entry : Location × Entry) : Option (List String × List UInt8) :=
  match entry.2 with
  | .file bytes =>
      if l.isPrefixOf entry.1 && l.length < entry.1.length then some (entry.1.drop l.length, bytes) else none
  | .folder => none

theorem filesBelow_eq (t : FileTree) (l : Location) : t.filesBelow l = t.entries.entries.filterMap (fileBelow? l) := rfl

theorem fileBelow?_eq_some {entry : Location × Entry} :
    fileBelow? l entry = some (names, bytes) ↔ names ≠ [] ∧ entry = (l ++ names, .file bytes) := by
  obtain ⟨key, e⟩ := entry
  cases e with
  | folder => exact ⟨nofun, fun same => nomatch same.2⟩
  | file bytes' =>
    rw [fileBelow?]
    dsimp only
    constructor
    · intro drawn
      split at drawn
      · rename_i inside
        rw [Bool.and_eq_true, decide_eq_true_eq, List.isPrefixOf_iff_prefix] at inside
        obtain ⟨⟨rest, rfl⟩, longer⟩ := inside
        rw [List.drop_left] at drawn
        cases drawn
        refine ⟨?_, rfl⟩
        rintro rfl
        rw [List.append_nil] at longer
        exact absurd longer (Nat.lt_irrefl _)
      · cases drawn
    · rintro ⟨below, same⟩
      cases same
      have longer : l.length < (l ++ names).length := by
        rw [List.length_append]
        exact Nat.lt_add_of_pos_right (List.length_pos_iff.2 below)
      rw [List.isPrefixOf_iff_prefix.2 (List.prefix_append l names), decide_eq_true longer, Bool.and_true, if_pos rfl,
        List.drop_left]

theorem mem_filesBelow : (names, bytes) ∈ t.filesBelow l ↔ names ≠ [] ∧ t.get? (l ++ names) = some (.file bytes) := by
  simp only [filesBelow_eq, List.mem_filterMap, fileBelow?_eq_some]
  constructor
  · rintro ⟨entry, listed, below, rfl⟩
    exact ⟨below, (mem_entries_iff (List.append_ne_nil_of_right_ne_nil l below)).1 listed⟩
  · rintro ⟨below, here⟩
    exact ⟨_, (mem_entries_iff (List.append_ne_nil_of_right_ne_nil l below)).2 here, below, rfl⟩

theorem length_le_depth (here : t.get? l = some e) : l.length ≤ t.depth := by
  cases l with
  | nil => exact Nat.zero_le _
  | cons s l =>
    refine List.le_max?_getD_of_mem (List.mem_map.2 ⟨s :: l, ?_, rfl⟩)
    exact List.mem_map.2 ⟨_, (mem_entries_iff (List.cons_ne_nil s l)).2 here, rfl⟩

/-! ## The order of a listing -/

/-- An item comes before another in a listing: its name is smaller, or it is a file and the other a folder. -/
def Before (i j : String × Entry) : Prop :=
  compare i.1 j.1 = .lt ∨ i.1 = j.1 ∧ i.2 ≠ .folder ∧ j.2 = .folder

theorem pairwise_items (t : FileTree) (l : Location) : (t.items l).Pairwise Before := by
  rw [items]
  refine (pairwise_eraseDups (R := fun i j => compare i.1 j.1 = .lt ∨ i.1 = j.1 ∧ j.2 = .folder) _ ?_).imp ?_
  · refine List.pairwise_filterMap.2 (t.entries.sorted.imp ?_)
    rintro ⟨key, e⟩ ⟨key', e'⟩ order i first j second
    obtain ⟨rest, rfl, -⟩ := shown?_eq_some.1 first
    obtain ⟨rest', rfl, folder⟩ := shown?_eq_some.1 second
    rw [compare_append, List.compare_cons_cons, Ordering.then_eq_lt] at order
    obtain smaller | both := order
    · exact .inl smaller
    · refine .inr ⟨Std.LawfulEqOrd.eq_of_compare both.1, ?_⟩
      -- nothing is smaller than the item itself, so the second one leads further down
      cases rest' with
      | nil => cases rest <;> cases both.2
      | cons s rest' => exact folder
  · rintro i j ⟨smaller | ⟨same, folder⟩, apart⟩
    · exact .inl smaller
    · exact .inr ⟨same, fun both => apart (Prod.ext same (both.trans folder.symm)), folder⟩

theorem sorted_filesBelow (t : FileTree) (l : Location) : Entries.Sorted (t.filesBelow l) := by
  rw [filesBelow_eq]
  refine List.pairwise_filterMap.2 (t.entries.sorted.imp ?_)
  rintro entry entry' order f first g second
  obtain ⟨-, rfl⟩ := fileBelow?_eq_some.1 first
  obtain ⟨-, rfl⟩ := fileBelow?_eq_some.1 second
  rwa [compare_append] at order

/-! ## Files below a folder -/

/-- The files that an item of a listing stands for: itself, or what is below it. -/
def filesOf (t : FileTree) (l : Location) : String × Entry → List (List String × List UInt8)
  | (name, .file bytes) => [([name], bytes)]
  | (name, .folder) => (t.filesBelow (l ++ [name])).map fun f => (name :: f.1, f.2)

theorem mem_filesOf_folder : (names, bytes) ∈ t.filesOf l (name, .folder) ↔
    ∃ rest, rest ≠ [] ∧ names = name :: rest ∧ t.get? (l ++ names) = some (.file bytes) := by
  rw [filesOf, List.mem_map]
  constructor
  · rintro ⟨⟨rest, bytes'⟩, below, same⟩
    cases same
    obtain ⟨some, here⟩ := mem_filesBelow.1 below
    rw [List.append_assoc] at here
    exact ⟨rest, some, rfl, here⟩
  · rintro ⟨rest, some, rfl, here⟩
    refine ⟨(rest, bytes), mem_filesBelow.2 ⟨some, ?_⟩, rfl⟩
    rwa [List.append_assoc]

theorem sorted_filesOf (t : FileTree) (l : Location) (item : String × Entry) : Entries.Sorted (t.filesOf l item) := by
  obtain ⟨name, _ | bytes⟩ := item
  · refine List.pairwise_map.2 ((sorted_filesBelow t (l ++ [name])).imp fun order => ?_)
    rw [List.compare_cons_cons, Std.ReflOrd.compare_self]
    exact order
  · exact List.pairwise_singleton _ _

theorem compare_of_before {i j : String × Entry} (before : Before i j) {f g : List String × List UInt8}
    (first : f ∈ t.filesOf l i) (second : g ∈ t.filesOf l j) : compare f.1 g.1 = .lt := by
  obtain ⟨name, e⟩ := i
  obtain ⟨name', e'⟩ := j
  have lead {name : String} {e : Entry} {f : List String × List UInt8} (member : f ∈ t.filesOf l (name, e)) :
      ∃ rest, f.1 = name :: rest := by
    cases e with
    | file bytes => exact ⟨[], congrArg Prod.fst (List.mem_singleton.1 member)⟩
    | folder =>
      obtain ⟨g, -, rfl⟩ := List.mem_map.1 member
      exact ⟨g.1, rfl⟩
  obtain smaller | ⟨same, other, folder⟩ := before
  · obtain ⟨rest, here⟩ := lead first
    obtain ⟨rest', there⟩ := lead second
    rw [here, there, List.compare_cons_cons, show compare name name' = .lt from smaller]
    rfl
  · dsimp only at same other folder
    subst same folder
    cases e with
    | folder => exact absurd rfl other
    | file bytes =>
      obtain ⟨rest, some, there, -⟩ := mem_filesOf_folder.1 second
      rw [List.mem_singleton.1 first, there, List.compare_cons_cons, Std.ReflOrd.compare_self]
      cases rest with
      | nil => exact absurd rfl some
      | cons s rest => rfl

/-- The files below a folder are those that the items of its listing stand for, in that order. -/
theorem filesBelow_eq_flatMap (t : FileTree) (l : Location) :
    t.filesBelow l = (t.items l).flatMap (t.filesOf l) := by
  have sorted : Entries.Sorted ((t.items l).flatMap (t.filesOf l)) :=
    List.pairwise_flatMap.2 ⟨fun item _ => sorted_filesOf t l item,
      (pairwise_items t l).imp fun before _ first _ second => compare_of_before before first second⟩
  refine Entries.ext_get? (sorted_filesBelow t l) sorted fun names => Option.ext fun bytes => ?_
  rw [Entries.get?_eq_some_iff (sorted_filesBelow t l), Entries.get?_eq_some_iff sorted, mem_filesBelow,
    List.mem_flatMap]
  constructor
  · rintro ⟨some, here⟩
    match names, some with
    | [name], _ => exact ⟨(name, .file bytes), mem_items_file.2 here, List.mem_singleton_self _⟩
    | name :: s :: rest, _ =>
      have more : s :: rest ≠ [] := List.cons_ne_nil s rest
      exact ⟨(name, .folder), mem_items.2 (.inr ⟨rfl, s :: rest, .file bytes, more, here⟩),
        mem_filesOf_folder.2 ⟨s :: rest, more, rfl, here⟩⟩
  · rintro ⟨⟨name, e⟩, listed, inner⟩
    cases e with
    | file bytes' =>
      cases List.mem_singleton.1 inner
      exact ⟨List.cons_ne_nil name [], mem_items_file.1 listed⟩
    | folder =>
      obtain ⟨rest, -, rfl, here⟩ := mem_filesOf_folder.1 inner
      exact ⟨List.cons_ne_nil name rest, here⟩

end FileTree

end Gazetteer
