import Gazetteer.Registry.Exports
import Gazetteer.Proofs.Ordered.Lookup
import Mathlib.Data.List.Induction
import Mathlib.Data.Prod.Lex
import Mathlib.Data.String.Basic

/-!
# Groups of records

The group of a file are the records of that file (`get?_groupByFile`), so nothing is in it that was not given
(`forall_mem_groupByFile`).  Leaving out repetitions adds nothing (`dedupBy_sublist`) and loses no key
(`mem_map_dedupBy`), and in a sorted list it leaves no key twice (`pairwise_dedupBy`).  The elements of all groups, each
with its file, are rows; their number is what a registry counts (`groupCount_eq`).
-/

namespace Gazetteer

set_option autoImplicit false

variable {α β κ : Type}

/-! ## Repetitions -/

theorem dedupBy_sublist (same : α → α → Bool) (xs : List α) : (dedupBy same xs).Sublist xs := by
  fun_induction dedupBy same xs with
  | case1 => exact .refl _
  | case2 a => exact .refl _
  | case3 a b rest equal ih => exact ih.trans (.cons_cons a (.cons b (.refl rest)))
  | case4 a b rest other ih => exact .cons_cons a ih

theorem mem_map_dedupBy {same : α → α → Bool} {key : α → κ} (sound : ∀ a b, same a b = true → key a = key b)
    {xs : List α} {k : κ} : k ∈ (dedupBy same xs).map key ↔ k ∈ xs.map key := by
  fun_induction dedupBy same xs with
  | case1 => rfl
  | case2 a => rfl
  | case3 a b rest equal ih =>
    rw [ih, List.map_cons, List.map_cons, List.map_cons, ← sound a b equal, List.mem_cons, List.mem_cons, List.mem_cons,
      or_self_left]
  | case4 a b rest other ih => rw [List.map_cons, List.map_cons, List.mem_cons, List.mem_cons, ih]

/-- In a sorted list what is the same stands together. -/
theorem pairwise_dedupBy [PartialOrder κ] {same : α → α → Bool} {order : α → κ} {xs : List α}
    (sorted : xs.Pairwise fun a b => order a ≤ order b)
    (whole : ∀ a ∈ xs, ∀ b ∈ xs, order a = order b → same a b = true) :
    (dedupBy same xs).Pairwise fun a b => order a < order b := by
  fun_induction dedupBy same xs with
  | case1 => exact .nil
  | case2 a => exact List.pairwise_singleton _ _
  | case3 a b rest equal ih =>
    have sub : (a :: rest).Sublist (a :: b :: rest) := .cons_cons a (.cons b (.refl rest))
    exact ih (sorted.sublist sub) fun x member y member' => whole x (sub.subset member) y (sub.subset member')
  | case4 a b rest other ih =>
    obtain ⟨first, later⟩ := List.pairwise_cons.1 sorted
    refine List.pairwise_cons.2 ⟨fun c member => ?_, ih later fun x member y member' =>
      whole x (List.mem_cons_of_mem a member) y (List.mem_cons_of_mem a member')⟩
    have apart : order a ≠ order b := fun equal => other (whole a (by simp) b (by simp) equal)
    have ahead : order a < order b := lt_of_le_of_ne (first b List.mem_cons_self) apart
    obtain rfl | inner := List.mem_cons.1 ((dedupBy_sublist same (b :: rest)).subset member)
    · exact ahead
    · exact ahead.trans_le ((List.pairwise_cons.1 later).1 c inner)

/-- The first of some elements that cannot be told apart from others stays the first. -/
theorem find?_dedupBy {same : α → α → Bool} {p : α → Bool} (alike : ∀ a b, same a b = true → p a = p b) (xs : List α) :
    (dedupBy same xs).find? p = xs.find? p := by
  fun_induction dedupBy same xs with
  | case1 => rfl
  | case2 a => rfl
  | case3 a b rest equal ih =>
    rw [ih, List.find?_cons, List.find?_cons, List.find?_cons, ← alike a b equal]
    cases p a <;> rfl
  | case4 a b rest other ih => rw [List.find?_cons, List.find?_cons, ih]

theorem dedupBy_of_pairwise {same : α → α → Bool} {xs : List α} (apart : xs.Pairwise fun a b => same a b = false) :
    dedupBy same xs = xs := by
  fun_induction dedupBy same xs with
  | case1 => rfl
  | case2 a => rfl
  | case3 a b rest equal ih =>
    have other := (List.pairwise_cons.1 apart).1 b List.mem_cons_self
    rw [other] at equal
    cases equal
  | case4 a b rest other ih => rw [ih (List.pairwise_cons.1 apart).2]

theorem find?_of_mem [DecidableEq κ] {key : α → κ} {xs : List α} (once : (xs.map key).Nodup) {a : α} (member : a ∈ xs) :
    xs.find? (fun b => key b = key a) = some a := by
  induction xs with
  | nil => cases member
  | cons b rest ih =>
    obtain ⟨fresh, once⟩ := List.nodup_cons.1 once
    rw [List.find?_cons]
    rcases List.mem_cons.1 member with rfl | member
    · simp
    · have apart : key b ≠ key a := fun same => fresh (by rw [same]; exact List.mem_map_of_mem member)
      simp [apart, ih once member]

section Sorted

variable [DecidableEq α] [LinearOrder κ] {atMost : α → α → Bool} {place : α → κ}

theorem mem_dedupBy {xs : List α} {a : α} : a ∈ dedupBy (fun a b => a = b) xs ↔ a ∈ xs := by
  have kept : ∀ a b : α, decide (a = b) = true → id a = id b := fun _ _ => of_decide_eq_true
  rw [← List.map_id (dedupBy _ _), mem_map_dedupBy kept, List.map_id]

theorem mem_dedupBy_mergeSort {xs : List α} {a : α} :
    a ∈ dedupBy (fun a b => a = b) (xs.mergeSort atMost) ↔ a ∈ xs := by
  rw [mem_dedupBy, List.mem_mergeSort]

theorem pairwise_dedupBy_mergeSort (compares : ∀ a b, atMost a b = true ↔ place a ≤ place b)
    (apart : Function.Injective place) (xs : List α) :
    (dedupBy (fun a b => a = b) (xs.mergeSort atMost)).Pairwise fun a b => place a < place b :=
  pairwise_dedupBy (pairwise_mergeSort_of_key compares xs) fun _ _ _ _ same => decide_eq_true (apart same)

end Sorted

/-! ## Groups by file -/

/-- The group of a file are its records, in the order given; no group is empty. -/
theorem get?_groupByFile (file : α → String) (xs : List α) (f : String) :
    (groupByFile file xs).get? f = Option.guard (fun group => !group.isEmpty) (xs.filter fun x => file x = f) := by
  have grown : (xs.foldl (fun (groups : SortedMap String (List α)) x =>
      groups.alter (file x) fun group => x :: group.getD []) ∅).get? f =
        Option.guard (fun group => !group.isEmpty) (xs.filter fun x => file x = f).reverse := by
    induction xs using List.reverseRecOn with
    | nil => rfl
    | append_singleton xs x ih =>
      have added (group : List α) : some (x :: (Option.guard (fun group => !group.isEmpty) group).getD []) =
          Option.guard (fun group => !group.isEmpty) (x :: group) := by
        cases group <;> rfl
      rw [List.foldl_append, List.foldl_cons, List.foldl_nil, SortedMap.get?_alter, List.filter_append,
        List.reverse_append]
      by_cases here : file x = f
      · have one : [x].filter (fun x => file x = f) = [x] := by simp [here]
        rw [if_pos here.symm, here, ih, added, one]
        rfl
      · have none : [x].filter (fun x => file x = f) = [] := by simp [here]
        rw [if_neg (Ne.symm here), ih, none]
        rfl
  rw [groupByFile, SortedMap.get?_map, grown]
  cases xs.filter fun x => file x = f with
  | nil => rfl
  | cons x rest => simp [Option.guard]

theorem get?_groupByFile_eq_some {file : α → String} {xs : List α} {f : String} {group : List α} :
    (groupByFile file xs).get? f = some group ↔ xs.filter (fun x => file x = f) = group ∧ group ≠ [] := by
  rw [get?_groupByFile, Option.guard_eq_some_iff]
  refine and_congr_right fun same => ?_
  rw [same, Bool.not_eq_true', List.isEmpty_eq_false_iff]

theorem get?_distilled {file : α → String} {distil : List α → List β} {xs : List α} {f : String} {list : List β} :
    ((groupByFile file xs).map fun _ group => distil group).get? f = some list ↔
      distil (xs.filter fun a => file a = f) = list ∧ (xs.filter fun a => file a = f) ≠ [] := by
  rw [SortedMap.get?_map, Option.map_eq_some_iff]
  constructor
  · rintro ⟨group, found, rfl⟩
    obtain ⟨rfl, filled⟩ := get?_groupByFile_eq_some.1 found
    exact ⟨rfl, filled⟩
  · rintro ⟨rfl, filled⟩
    exact ⟨_, get?_groupByFile_eq_some.2 ⟨rfl, filled⟩, rfl⟩

/-- What holds of all records holds of those in every group. -/
theorem forall_mem_groupByFile {P : α → Prop} {file : α → String} {xs : List α} (each : ∀ x ∈ xs, P x) :
    ∀ e ∈ (groupByFile file xs).entries, ∀ x ∈ e.2, P x := by
  rintro ⟨f, group⟩ listed x member
  rw [SortedMap.mem_entries_iff, get?_groupByFile_eq_some] at listed
  rw [← listed.1] at member
  exact each x (List.mem_filter.1 member).1

theorem wordCount_lt (n : Nat) : wordCount n < UInt64.size := Nat.mod_lt n (by decide)

theorem groupCount_lt (groups : SortedMap String (List α)) : groupCount groups < UInt64.size := wordCount_lt _

theorem wordCount_of_lt {n : Nat} (fits : n < UInt64.size) : wordCount n = n := Nat.mod_eq_of_lt fits

/-! ## Rows -/

theorem length_flatMap (list : α → List β) (xs : List α) :
    (xs.flatMap list).length = sumOf (xs.map fun a => (list a).length) := by
  rw [sumOf, ← List.sum_eq_foldl, List.length_flatMap]

namespace SortedMap

/-- The elements of all groups, each with its file. -/
def rows (files : SortedMap String (List β)) : List (String × β) :=
  files.entries.flatMap fun e => e.2.map (Prod.mk e.1)

variable {files : SortedMap String (List β)}

theorem mem_rows {file : String} {b : β} :
    (file, b) ∈ files.rows ↔ ∃ group, files.get? file = some group ∧ b ∈ group := by
  simp only [rows, List.mem_flatMap, List.mem_map, Prod.mk.injEq, Prod.exists, ← mem_entries_iff]
  constructor
  · rintro ⟨_, group, listed, _, member, rfl, rfl⟩
    exact ⟨group, listed, member⟩
  · rintro ⟨group, listed, member⟩
    exact ⟨file, group, listed, b, member, rfl, rfl⟩

theorem length_rows (files : SortedMap String (List β)) : files.rows.length = sumOf (files.values.map (·.length)) := by
  rw [rows, length_flatMap, values, List.map_map]
  refine congrArg sumOf (List.map_congr_left fun e _ => ?_)
  exact List.length_map _

/-- No row comes twice if no key does in its group. -/
theorem nodup_rows {key : β → κ} (once : ∀ file group, files.get? file = some group → (group.map key).Nodup) :
    (files.rows.map fun r => (r.1, key r.2)).Nodup := by
  have split : (files.rows.map fun r => (r.1, key r.2)) =
      files.entries.flatMap fun e => (e.2.map key).map (Prod.mk e.1) := by
    rw [rows, List.map_flatMap]
    simp only [List.map_map, Function.comp_def]
  rw [split, List.nodup_flatMap]
  constructor
  · rintro ⟨file, group⟩ listed
    exact (once file group (mem_entries_iff.1 listed)).map (Prod.mk_right_injective file)
  · refine (List.pairwise_map.1 (Entries.nodup_keys files.sorted)).imp ?_
    intro d e apart
    refine List.disjoint_left.2 ?_
    intro row inner inner'
    obtain ⟨k, -, rfl⟩ := List.mem_map.1 inner
    obtain ⟨k', -, same⟩ := List.mem_map.1 inner'
    exact apart (congrArg Prod.fst same).symm

/-- Of the elements of all groups, those of a file are its group. -/
theorem filter_flatten_values {file : α → String} {files : SortedMap String (List α)}
    (filed : ∀ f group, files.get? f = some group → ∀ a ∈ group, file a = f) (f : String) :
    files.values.flatten.filter (fun a => file a = f) = (files.get? f).getD [] := by
  have none (es : List (String × List α)) (inner : ∀ e ∈ es, e ∈ files.entries) (other : ∀ e ∈ es, e.1 ≠ f) :
      (es.map (·.2)).flatten.filter (fun a => file a = f) = [] := by
    refine List.filter_eq_nil_iff.2 ?_
    intro a member same
    obtain ⟨group, listed, member⟩ := List.mem_flatten.1 member
    obtain ⟨e, given, rfl⟩ := List.mem_map.1 listed
    have own := filed e.1 e.2 (mem_entries_iff.1 (inner e given)) a member
    exact other e given (own.symm.trans (of_decide_eq_true same))
  cases found : files.get? f with
  | none =>
    refine none files.entries (fun _ given => given) ?_
    rintro ⟨_, group⟩ given rfl
    rw [mem_entries_iff, found] at given
    cases given
  | some group =>
    obtain ⟨before, after, split⟩ := List.append_of_mem (mem_entries_iff.2 found)
    have once := Entries.nodup_keys files.sorted
    rw [split, List.map_append, List.map_cons, List.nodup_append, List.nodup_cons] at once
    obtain ⟨-, ⟨fresh, -⟩, apart⟩ := once
    have ahead := none before (fun e given => by rw [split]; exact List.mem_append_left _ given) fun e given =>
      apart e.1 (List.mem_map_of_mem given) f List.mem_cons_self
    have behind := none after
      (fun e given => by rw [split]; exact List.mem_append_right _ (List.mem_cons_of_mem _ given))
      fun e given same => fresh (List.mem_map.2 ⟨e, given, same⟩)
    have own : group.filter (fun a => file a = f) = group :=
      List.filter_eq_self.2 fun a member => decide_eq_true (filed f group found a member)
    rw [values, split, List.map_append, List.map_cons, List.flatten_append, List.flatten_cons, List.filter_append,
      List.filter_append, ahead, behind, own, List.append_nil, List.nil_append]
    rfl

end SortedMap

theorem groupCount_eq (groups : SortedMap String (List α)) : groupCount groups = wordCount groups.rows.length := by
  rw [groupCount, SortedMap.length_rows]

end Gazetteer
