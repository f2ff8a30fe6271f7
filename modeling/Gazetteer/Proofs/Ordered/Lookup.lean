import Gazetteer.Ordered.SortedSet
import Mathlib.Data.List.Induction
import Mathlib.Data.List.Nodup
import Mathlib.Data.List.Sort

/-!
# Lookup in sorted maps

In a list of entries in key order, lookup is membership (`Entries.get?_eq_some_iff`), so two such lists with the
same lookups are the same list (`Entries.ext_get?`).  From this follow the laws by which maps are compared elsewhere:
what is found after each operation, and that a map is the map of its own entries (`SortedMap.ofList_entries`).
-/

namespace Gazetteer

set_option autoImplicit false

/-- Sorting by a comparison of keys sorts the keys. -/
theorem pairwise_mergeSort_of_key {α κ : Type} [LinearOrder κ] {atMost : α → α → Bool} {key : α → κ}
    (compares : ∀ a b, atMost a b = true ↔ key a ≤ key b) (xs : List α) :
    (xs.mergeSort atMost).Pairwise fun a b => key a ≤ key b := by
  refine (List.pairwise_mergeSort (fun a b c first second => ?_) (fun a b => ?_) xs).imp fun {a b} => (compares a b).1
  · rw [compares] at first second ⊢
    exact first.trans second
  · rw [Bool.or_eq_true, compares, compares]
    exact le_total (key a) (key b)

/-- Sorting forgets the order if the keys tell the elements apart. -/
theorem mergeSort_perm_of_key {α κ : Type} [LinearOrder κ] {atMost : α → α → Bool} {key : α → κ}
    (compares : ∀ a b, atMost a b = true ↔ key a ≤ key b) (apart : Function.Injective key) {xs ys : List α}
    (perm : xs.Perm ys) : ys.mergeSort atMost = xs.mergeSort atMost := by
  refine List.Perm.eq_of_pairwise (fun a b _ _ first second => apart (le_antisymm first second))
    (pairwise_mergeSort_of_key compares ys) (pairwise_mergeSort_of_key compares xs) ?_
  exact (List.mergeSort_perm ys _).trans (perm.symm.trans (List.mergeSort_perm xs _).symm)

/-- Sorting by a comparison of keys keeps elements of one key in the order given. -/
theorem filter_mergeSort_of_key {α κ : Type} [LinearOrder κ] {atMost : α → α → Bool} {key : α → κ}
    (compares : ∀ a b, atMost a b = true ↔ key a ≤ key b) {p : α → Bool} {xs : List α}
    (alike : ∀ a ∈ xs, ∀ b ∈ xs, p a = true → p b = true → key a = key b) :
    (xs.mergeSort atMost).filter p = xs.filter p := by
  have sorted : (xs.filter p).Pairwise fun a b => atMost a b = true := by
    refine List.pairwise_of_forall_mem_list ?_
    intro a member b member'
    rw [List.mem_filter] at member member'
    exact (compares a b).2 (alike a member.1 b member'.1 member.2 member'.2).le
  have kept : (xs.filter p).Sublist (xs.mergeSort atMost) := by
    refine List.sublist_mergeSort ?_ ?_ sorted List.filter_sublist
    · intro a b c first second
      rw [compares] at first second ⊢
      exact first.trans second
    · intro a b
      rw [Bool.or_eq_true, compares, compares]
      exact le_total (key a) (key b)
  have whole : (xs.filter p).Sublist ((xs.mergeSort atMost).filter p) := by
    have again := kept.filter p
    rwa [List.filter_filter, show (fun a => p a && p a) = p by funext a; simp] at again
  refine (whole.eq_of_length ?_).symm
  exact ((List.mergeSort_perm xs atMost).filter p).symm.length_eq

/-- What is in a list tells it, if its places grow. -/
theorem eq_of_growing {α κ : Type} [LinearOrder κ] {place : α → κ} {xs ys : List α}
    (first : xs.Pairwise fun a b => place a < place b) (second : ys.Pairwise fun a b => place a < place b)
    (same : ∀ a, a ∈ xs ↔ a ∈ ys) : xs = ys := by
  have once {zs : List α} (grows : zs.Pairwise fun a b => place a < place b) : zs.Nodup :=
    grows.imp fun before equal => before.ne (congrArg place equal)
  have perm := (List.perm_ext_iff_of_nodup (once first) (once second)).2 same
  exact perm.eq_of_pairwise (fun a b _ _ before after => absurd after before.asymm) first second

namespace Entries

set_option linter.unusedSectionVars false

variable {κ ν : Type} [Ord κ]

/-! ## Lookup is membership -/

theorem get?_cons (k l : κ) (w : ν) (rest : List (κ × ν)) :
    get? k ((l, w) :: rest) =
      match compare k l with
      | .lt => none
      | .eq => some w
      | .gt => get? k rest := rfl

section Lookup

variable [Std.TransOrd κ] [Std.LawfulEqOrd κ]

theorem get?_eq_some_iff {xs : List (κ × ν)} (sorted : Sorted xs) {k : κ} {v : ν} :
    get? k xs = some v ↔ (k, v) ∈ xs := by
  induction xs with
  | nil => simp [get?]
  | cons x rest ih =>
    obtain ⟨l, w⟩ := x
    obtain ⟨below, tail⟩ := List.pairwise_cons.1 sorted
    rw [get?_cons, List.mem_cons, Prod.mk.injEq, ← ih tail]
    -- an entry of the tail has a greater key than the head
    have later (h : get? k rest = some v) : compare k l = .gt := by
      rw [Std.OrientedOrd.eq_swap, below (k, v) ((ih tail).1 h)]
      rfl
    cases order : compare k l with
    | lt =>
      have ne : k ≠ l := by rintro rfl; simp at order
      have absent : get? k rest ≠ some v := fun h => by simp [later h] at order
      simp [ne, absent]
    | eq =>
      have absent : get? k rest ≠ some v := fun h => by simp [later h] at order
      cases Std.LawfulEqOrd.eq_of_compare order
      simp [absent, eq_comm]
    | gt =>
      have ne : k ≠ l := by rintro rfl; simp at order
      simp [ne]

theorem get?_put_of_ne {k l : κ} (ne : l ≠ k) (v : ν) (xs : List (κ × ν)) (sorted : Sorted xs) :
    get? l (put k v xs) = get? l xs := by
  have same (w : ν) : (l, w) ∈ put k v xs ↔ (l, w) ∈ xs := by
    clear sorted
    induction xs with
    | nil => simp [put, ne]
    | cons x rest ih =>
      obtain ⟨m, u⟩ := x
      unfold put
      split <;> rename_i order
      · simp [ne]
      · cases Std.LawfulEqOrd.eq_of_compare order
        simp [ne]
      · simp [ih]
  apply Option.ext
  intro w
  rw [get?_eq_some_iff (sorted_put sorted), get?_eq_some_iff sorted, same]

theorem nodup_keys {xs : List (κ × ν)} (sorted : Sorted xs) : (xs.map (·.1)).Nodup := by
  refine List.pairwise_map.2 (sorted.imp ?_)
  intro a b order equal
  rw [equal, Std.ReflOrd.compare_self] at order
  exact absurd order (by decide)

theorem ext_get? {xs ys : List (κ × ν)} (left : Sorted xs) (right : Sorted ys)
    (same : ∀ k, get? k xs = get? k ys) : xs = ys := by
  have members (e : κ × ν) : e ∈ xs ↔ e ∈ ys := by
    rw [← get?_eq_some_iff left, ← get?_eq_some_iff right, same]
  have perm : xs.Perm ys := (List.perm_ext_iff_of_nodup (nodup_keys left).of_map
    (nodup_keys right).of_map).2 members
  refine perm.eq_of_pairwise ?_ left right
  intro a b _ _ hab hba
  rw [Std.OrientedOrd.eq_swap, hab] at hba
  exact absurd hba (by decide)

theorem get?_filter {xs : List (κ × ν)} (sorted : Sorted xs) (p : κ × ν → Bool) (k : κ) :
    get? k (xs.filter p) = (get? k xs).filter fun v => p (k, v) := by
  have kept : Sorted (xs.filter p) := List.Pairwise.sublist List.filter_sublist sorted
  apply Option.ext
  intro v
  rw [get?_eq_some_iff kept, List.mem_filter, ← get?_eq_some_iff sorted, Option.filter_eq_some_iff]

end Lookup

end Entries

namespace SortedMap

variable {κ ν : Type} [Ord κ]

variable [Std.TransOrd κ] [Std.LawfulEqOrd κ]

/-! ## What is found after each operation -/

theorem ext_get? {m n : SortedMap κ ν} (same : ∀ k, m.get? k = n.get? k) : m = n :=
  ext (Entries.ext_get? m.sorted n.sorted same)

theorem mem_entries_iff {m : SortedMap κ ν} {k : κ} {v : ν} : (k, v) ∈ m.entries ↔ m.get? k = some v :=
  (Entries.get?_eq_some_iff m.sorted).symm

theorem mem_keys_iff {m : SortedMap κ ν} {k : κ} : k ∈ m.keys ↔ ∃ v, m.get? k = some v := by
  rw [keys, List.mem_map]
  constructor
  · rintro ⟨⟨_, v⟩, listed, rfl⟩
    exact ⟨v, mem_entries_iff.1 listed⟩
  · rintro ⟨v, found⟩
    exact ⟨(k, v), mem_entries_iff.2 found, rfl⟩

theorem contains_iff_mem_keys {m : SortedMap κ ν} {k : κ} : m.contains k = true ↔ k ∈ m.keys := by
  rw [contains, Option.isSome_iff_exists, mem_keys_iff]

theorem get?_insert [DecidableEq κ] (m : SortedMap κ ν) (k l : κ) (v : ν) :
    (m.insert k v).get? l = if l = k then some v else m.get? l := by
  split
  · rename_i h; rw [h, get?_insert_self]
  · rename_i h; exact Entries.get?_put_of_ne h v m.entries m.sorted

theorem get?_alter [DecidableEq κ] (m : SortedMap κ ν) (k l : κ) (f : Option ν → ν) :
    (m.alter k f).get? l = if l = k then some (f (m.get? k)) else m.get? l := get?_insert m k l _

theorem get?_map {μ : Type} (f : κ → ν → μ) (m : SortedMap κ ν) (k : κ) :
    (m.map f).get? k = (m.get? k).map (f k) := by
  refine Option.ext fun w => ?_
  rw [← mem_entries_iff, map, List.mem_map, Option.map_eq_some_iff]
  constructor
  · rintro ⟨⟨k', v⟩, listed, same⟩
    cases same
    exact ⟨v, mem_entries_iff.1 listed, rfl⟩
  · rintro ⟨v, found, rfl⟩
    exact ⟨(k, v), mem_entries_iff.2 found, rfl⟩

theorem get?_filter (m : SortedMap κ ν) (p : κ → ν → Bool) (k : κ) :
    (m.filter p).get? k = (m.get? k).filter (p k) :=
  Entries.get?_filter m.sorted (fun e => p e.1 e.2) k

theorem filter_eq_of_mem_iff {m n : SortedMap κ ν} {p : κ → ν → Bool}
    (same : ∀ k v, m.get? k = some v ∧ p k v = true ↔ (k, v) ∈ n.entries) : m.filter p = n := by
  refine ext_get? fun k => Option.ext fun v => ?_
  rw [get?_filter, Option.filter_eq_some_iff, same, mem_entries_iff]

theorem get?_remove [DecidableEq κ] (m : SortedMap κ ν) (k l : κ) :
    (m.remove k).get? l = if l = k then none else m.get? l := by
  have found : (m.remove k).get? l = (m.get? l).filter fun _ => compare k l != .eq :=
    Entries.get?_filter m.sorted _ l
  rw [found]
  split
  · rename_i h
    subst h
    simp
  · rename_i h
    have apart : (compare k l != .eq) = true := by
      simpa [Std.LawfulEqOrd.compare_eq_iff_eq] using Ne.symm h
    cases m.get? l <;> simp [apart]

/-! ## The map of a list -/

theorem get?_foldl_insert [DecidableEq κ] (xs : List (κ × ν)) (m : SortedMap κ ν) (k : κ) :
    (xs.foldl (fun m e => m.insert e.1 e.2) m).get? k = (xs.reverse.lookup k).or (m.get? k) := by
  induction xs generalizing m with
  | nil => simp
  | cons x rest ih =>
    obtain ⟨l, w⟩ := x
    rw [List.foldl_cons, ih, List.reverse_cons, List.lookup_append, get?_insert, Option.or_assoc]
    by_cases h : k = l
    · simp [h]
    · have apart : (k == l) = false := beq_false_of_ne h
      simp [h, List.lookup_cons, apart]

theorem get?_ofList [DecidableEq κ] (xs : List (κ × ν)) (k : κ) :
    (ofList xs).get? k = xs.reverse.lookup k := by
  rw [ofList, get?_foldl_insert]
  exact Option.or_none

theorem mem_of_mem_ofList [DecidableEq κ] {xs : List (κ × ν)} {e : κ × ν} (member : e ∈ (ofList xs).entries) :
    e ∈ xs := by
  obtain ⟨k, v⟩ := e
  rw [mem_entries_iff, get?_ofList] at member
  obtain ⟨before, after, split, -⟩ := List.lookup_eq_some_iff.1 member
  rw [← List.mem_reverse, split]
  exact List.mem_append_right before List.mem_cons_self

theorem lookup_eq_some_iff [DecidableEq κ] {xs : List (κ × ν)} (nodup : (xs.map (·.1)).Nodup) {k : κ} {v : ν} :
    xs.lookup k = some v ↔ (k, v) ∈ xs := by
  induction xs with
  | nil => simp
  | cons x rest ih =>
    obtain ⟨l, w⟩ := x
    obtain ⟨fresh, nodup⟩ := List.nodup_cons.1 nodup
    rw [List.lookup_cons]
    by_cases h : k = l
    · subst h
      have absent : (k, v) ∉ rest := fun member => fresh (List.mem_map.2 ⟨_, member, rfl⟩)
      simp [absent, eq_comm]
    · have apart : (k == l) = false := beq_false_of_ne h
      simp [apart, h, ih nodup]

/-- Where no key comes twice, the map of a list finds what is in the list. -/
theorem get?_ofList_eq_some_iff [DecidableEq κ] {xs : List (κ × ν)} (nodup : (xs.map (·.1)).Nodup)
    {k : κ} {v : ν} : (ofList xs).get? k = some v ↔ (k, v) ∈ xs := by
  have backwards : (xs.reverse.map (·.1)).Nodup := by
    rw [List.map_reverse]; exact List.nodup_reverse.2 nodup
  rw [get?_ofList, lookup_eq_some_iff backwards, List.mem_reverse]

/-- The map of what is drawn from the values of another, each under its own key. -/
theorem get?_ofList_filterMap [DecidableEq κ] {μ : Type} (m : SortedMap κ ν) (f : ν → Option μ) (k : κ) :
    (ofList (m.entries.filterMap fun e => (f e.2).map fun w => (e.1, w))).get? k = (m.get? k).bind f := by
  have drawn (xs : List (κ × ν)) : ((xs.filterMap fun e => (f e.2).map fun w => (e.1, w)).map (·.1)).Sublist
      (xs.map (·.1)) := by
    induction xs with
    | nil => exact List.Sublist.refl []
    | cons e xs ih =>
      cases here : f e.2 with
      | none => simpa [here] using ih.cons e.1
      | some w => simpa [here] using ih
  have nodup := (Entries.nodup_keys m.sorted).sublist (drawn m.entries)
  apply Option.ext
  intro w
  rw [get?_ofList_eq_some_iff nodup]
  simp only [List.mem_filterMap, Option.map_eq_some_iff, Prod.mk.injEq, Option.bind_eq_some_iff, ← mem_entries_iff,
    Prod.exists]
  constructor
  · rintro ⟨_, v, member, _, here, rfl, rfl⟩
    exact ⟨v, member, here⟩
  · rintro ⟨v, member, here⟩
    exact ⟨k, v, member, w, here, rfl, rfl⟩

theorem ofList_of_sorted [DecidableEq κ] {xs : List (κ × ν)} (sorted : Entries.Sorted xs) :
    ofList xs = ⟨xs, sorted⟩ := by
  apply ext_get?
  intro k
  apply Option.ext
  intro v
  rw [get?_ofList_eq_some_iff (Entries.nodup_keys sorted), ← mem_entries_iff]

@[simp]
theorem ofList_entries [DecidableEq κ] (m : SortedMap κ ν) : ofList m.entries = m := ofList_of_sorted m.sorted

theorem entries_foldl_insert (xs : List (κ × ν)) (m : SortedMap κ ν) :
    (xs.foldl (fun m e => m.insert e.1 e.2) m).entries =
      xs.foldl (fun done e => Entries.put e.1 e.2 done) m.entries := by
  induction xs generalizing m with
  | nil => rfl
  | cons x rest ih => rw [List.foldl_cons, List.foldl_cons, ih]; rfl

/-- Putting sorted entries in one after the other gives them back. -/
theorem foldl_put_of_sorted [DecidableEq κ] {xs : List (κ × ν)} (sorted : Entries.Sorted xs) :
    xs.foldl (fun done e => Entries.put e.1 e.2 done) [] = xs := by
  have same := congrArg SortedMap.entries (ofList_of_sorted sorted)
  rw [ofList, entries_foldl_insert] at same
  exact same

/-- What is drawn from the entries of a map depends only on those that something is drawn from. -/
theorem filterMap_congr {β : Type} {m n : SortedMap κ ν} {g : κ × ν → Option β}
    (same : ∀ k v, (g (k, v)).isSome = true → (m.get? k = some v ↔ n.get? k = some v)) :
    m.entries.filterMap g = n.entries.filterMap g := by
  have drawn (xs : List (κ × ν)) : xs.filterMap g = (xs.filter fun e => (g e).isSome).filterMap g := by
    rw [List.filterMap_filter]
    refine List.filterMap_congr fun e _ => ?_
    cases g e <;> rfl
  have maps : m.filter (fun k v => (g (k, v)).isSome) = n.filter fun k v => (g (k, v)).isSome := by
    refine ext_get? fun k => Option.ext fun v => ?_
    rw [get?_filter, get?_filter, Option.filter_eq_some_iff, Option.filter_eq_some_iff]
    exact and_congr_left fun some => same k v some
  rw [drawn m.entries, drawn n.entries]
  exact congrArg (fun map => map.entries.filterMap g) maps

end SortedMap

namespace SortedSet

variable {α : Type} [Ord α]

theorem toList_filter (p : α → Bool) (s : SortedSet α) : (s.filter p).toList = s.toList.filter p :=
  List.filter_map.symm

variable [Std.TransOrd α] [Std.LawfulEqOrd α]

theorem contains_iff_mem {s : SortedSet α} {a : α} : s.contains a = true ↔ a ∈ s.toList := by
  simp only [contains, SortedMap.contains, Option.isSome_iff_exists, ← SortedMap.mem_entries_iff, toList,
    SortedMap.keys, List.mem_map, Prod.exists]
  exact ⟨fun ⟨u, member⟩ => ⟨a, u, member, rfl⟩, fun ⟨_, u, member, same⟩ => ⟨u, same ▸ member⟩⟩

theorem nodup_toList (s : SortedSet α) : s.toList.Nodup := Entries.nodup_keys s.entries.sorted

theorem mem_toList_insert [DecidableEq α] {s : SortedSet α} {a b : α} :
    b ∈ (s.insert a).toList ↔ b = a ∨ b ∈ s.toList := by
  rw [← contains_iff_mem, ← contains_iff_mem, contains, contains, SortedMap.contains, SortedMap.contains, insert,
    SortedMap.get?_insert]
  by_cases same : b = a <;> simp [same]

theorem mem_toList_ofList [DecidableEq α] {xs : List α} {a : α} : a ∈ (ofList xs).toList ↔ a ∈ xs := by
  induction xs using List.reverseRecOn with
  | nil => exact iff_of_false List.not_mem_nil List.not_mem_nil
  | append_singleton xs x ih =>
    have step : ofList (xs ++ [x]) = (ofList xs).insert x := List.foldl_append
    rw [step, mem_toList_insert, ih, List.mem_append, List.mem_singleton, or_comm]

theorem size_ofList [DecidableEq α] {xs : List α} (once : xs.Nodup) : (ofList xs).size = xs.length := by
  have perm : (ofList xs).toList.Perm xs :=
    (List.perm_ext_iff_of_nodup (nodup_toList _) once).2 fun _ => mem_toList_ofList
  exact (List.length_map _).symm.trans perm.length_eq

theorem ext_mem {s t : SortedSet α} (same : ∀ a, a ∈ s.toList ↔ a ∈ t.toList) : s = t := by
  have found {s : SortedSet α} {a : α} : s.entries.get? a = some () ↔ a ∈ s.toList := by
    rw [toList, SortedMap.mem_keys_iff]
    exact ⟨fun here => ⟨(), here⟩, fun ⟨(), here⟩ => here⟩
  exact congrArg SortedSet.mk (SortedMap.ext_get? fun a => Option.ext fun () => found.trans ((same a).trans found.symm))

theorem ofList_perm [DecidableEq α] {xs ys : List α} (perm : xs.Perm ys) : ofList ys = ofList xs :=
  ext_mem fun _ => mem_toList_ofList.trans (perm.mem_iff.symm.trans mem_toList_ofList.symm)

end SortedSet

end Gazetteer
