import Gazetteer.Proofs.Registry.Groups
import Gazetteer.Registry.Coverage
import Mathlib.Data.Finset.Card
import Mathlib.Data.Finset.SymmDiff

/-!
# Coverage and delta as sizes of sets

An index stands for the set of the pairs of file and key that it holds (`KeyIndex.held`); a file without keys adds none.
The counts that are made file by file are sizes of such sets: `KeyIndex.count` of the set itself (`count_eq`), the hits
of `Coverage.between` of an intersection (`hits_eq`), and `KeyIndex.delta` of a symmetric difference (`delta_eq`).  So
coverage and delta measure the same sets (`KeyIndex.measured`), and the delta is a distance.
-/

namespace Gazetteer

set_option autoImplicit false

open scoped symmDiff

namespace KeyIndex

variable {index previous fresh known documented : KeyIndex} {file key : String}

/-! ## Pairs -/

/-- The pairs of file and key that an index holds. -/
def held (index : KeyIndex) : Finset (String × String) := index.pairs.toFinset

theorem pairs_eq_rows (index : KeyIndex) : index.pairs = (index.map fun _ keys => keys.toList).rows := by
  rw [pairs, SortedMap.rows, SortedMap.map, List.flatMap_map]

theorem mem_held : (file, key) ∈ index.held ↔ ∃ keys, index.get? file = some keys ∧ key ∈ keys.toList := by
  rw [held, List.mem_toFinset, pairs_eq_rows, SortedMap.mem_rows]
  simp [SortedMap.get?_map]

theorem holds_iff : index.holds file key = true ↔ (file, key) ∈ index.held := by
  rw [mem_held, holds]
  cases index.get? file with
  | none => simp
  | some keys => simp [SortedSet.contains_iff_mem]

theorem nodup_pairs (index : KeyIndex) : index.pairs.Nodup := by
  have once : ∀ file list, (index.map fun _ keys => keys.toList).get? file = some list → (list.map id).Nodup := by
    intro file list found
    rw [SortedMap.get?_map] at found
    obtain ⟨keys, -, rfl⟩ := Option.map_eq_some_iff.1 found
    rw [List.map_id]
    exact keys.nodup_toList
  have rows := SortedMap.nodup_rows once
  rwa [← pairs_eq_rows, show (fun r : String × String => (r.1, id r.2)) = id from rfl, List.map_id] at rows

/-- Pairs that pass a test are counted like a set. -/
theorem length_filter_pairs (index : KeyIndex) (p : String × String → Bool) :
    (index.pairs.filter p).length = (index.held.filter fun pair => p pair = true).card := by
  rw [← List.toFinset_card_of_nodup ((nodup_pairs index).filter p), held, List.toFinset_filter]

/-! ## Counts -/

theorem count_eq (index : KeyIndex) : index.count = index.held.card := by
  rw [held, List.toFinset_card_of_nodup (nodup_pairs index), pairs_eq_rows, SortedMap.length_rows, count]
  simp only [SortedMap.values, SortedMap.map, List.map_map]
  refine congrArg sumOf (List.map_congr_left fun e _ => ?_)
  exact (List.length_map _).symm

/-- Of the pairs of one file, those that are documented are as many as its keys that are. -/
theorem length_filter_file (documented : KeyIndex) (file : String) (keys : SortedSet String) :
    ((keys.toList.map fun key => (file, key)).filter fun pair => documented.holds pair.1 pair.2).length =
      match documented.get? file with
      | some present => (keys.intersection present).size
      | none => 0 := by
  rw [List.filter_map, List.length_map]
  cases found : documented.get? file with
  | none =>
    rw [List.filter_eq_nil_iff.2]
    · rfl
    · intro key _
      simp [holds, found]
  | some present =>
    have same : ((fun pair => documented.holds pair.1 pair.2) ∘ fun key => (file, key)) = present.contains := by
      funext key
      simp [holds, found]
    rw [same, ← SortedSet.toList_filter]
    exact List.length_map _

/-- What coverage counts file by file are the pairs that both indexes hold. -/
theorem hits_eq (known documented : KeyIndex) :
    sumOf (known.entries.map fun e =>
      match documented.get? e.1 with
      | some present => (e.2.intersection present).size
      | none => 0) = (known.held ∩ documented.held).card := by
  have documents (pair : String × String) : documented.holds pair.1 pair.2 = true ↔ pair ∈ documented.held := holds_iff
  rw [← Finset.filter_mem_eq_inter]
  simp only [← documents]
  rw [← length_filter_pairs, pairs, List.filter_flatMap, length_flatMap]
  refine congrArg sumOf (List.map_congr_left fun e _ => ?_)
  exact (length_filter_file documented e.1 e.2).symm

theorem documented_between (known documented : KeyIndex) :
    (Coverage.between known documented).documented = (known.held ∩ documented.held).card := by
  have few : (known.held ∩ documented.held).card ≤ known.count := by
    rw [count_eq]
    exact Finset.card_le_card Finset.inter_subset_left
  exact (congrArg (fun hits => min hits known.count) (hits_eq known documented)).trans (min_eq_left few)

theorem delta_eq_add (previous fresh : KeyIndex) :
    previous.delta fresh = (previous.held \ fresh.held).card + (fresh.held \ previous.held).card := by
  have lacks (a b : KeyIndex) : (a.pairs.filter fun pair => !b.holds pair.1 pair.2).length = (a.held \ b.held).card := by
    rw [length_filter_pairs]
    refine congrArg Finset.card ?_
    ext ⟨file, key⟩
    simp [← holds_iff]
  rw [← lacks, ← lacks]
  rfl

theorem delta_eq (previous fresh : KeyIndex) : previous.delta fresh = (previous.held ∆ fresh.held).card := by
  have apart : Disjoint (previous.held \ fresh.held) (fresh.held \ previous.held) := disjoint_sdiff_sdiff
  rw [delta_eq_add, symmDiff_def, Finset.sup_eq_union, Finset.card_union_of_disjoint apart]

/-! ## An index against itself -/

theorem delta_self (index : KeyIndex) : index.delta index = 0 := by
  rw [delta_eq, symmDiff_self]
  rfl

/-- Of its own items an index documents all. -/
theorem between_self (index : KeyIndex) : Coverage.between index index = .of index.count index.count := by
  have hits := hits_eq index index
  rw [Finset.inter_self, ← count_eq] at hits
  exact congrArg (fun n => Coverage.of n index.count) hits

/-! ## Both measures -/

/-- Coverage and delta of two indexes, in terms of the pairs that they hold. -/
structure Measured (known documented : KeyIndex) : Prop where
  known_count : known.count = known.held.card
  documented_count : documented.count = documented.held.card
  hits : (Coverage.between known documented).documented = (known.held ∩ documented.held).card
  total : (Coverage.between known documented).total = known.held.card
  delta : documented.delta known + 2 * (known.held ∩ documented.held).card = known.held.card + documented.held.card
  comm : documented.delta known = known.delta documented
  /-- Nothing has changed exactly if the same pairs are held. -/
  zero : documented.delta known = 0 ↔ known.held = documented.held
  triangle : ∀ between : KeyIndex, documented.delta known ≤ documented.delta between + between.delta known
  /-- All is covered exactly if every known pair is documented. -/
  complete : (Coverage.between known documented).documented = (Coverage.between known documented).total ↔
    ∀ file key, known.holds file key = true → documented.holds file key = true

theorem measured (known documented : KeyIndex) : Measured known documented where
  known_count := count_eq known
  documented_count := count_eq documented
  hits := documented_between known documented
  total := count_eq known
  delta := by
    have rest := Finset.card_inter_add_card_sdiff known.held documented.held
    have rest' := Finset.card_inter_add_card_sdiff documented.held known.held
    rw [Finset.inter_comm] at rest'
    rw [delta_eq_add]
    omega
  comm := by rw [delta_eq, delta_eq, symmDiff_comm]
  zero := by rw [delta_eq, Finset.card_eq_zero, ← Finset.bot_eq_empty, symmDiff_eq_bot, eq_comm]
  triangle between := by
    rw [delta_eq, delta_eq, delta_eq]
    exact (Finset.card_le_card (symmDiff_triangle _ between.held _)).trans (Finset.card_union_le _ _)
  complete := by
    have total : (Coverage.between known documented).total = known.held.card := count_eq known
    rw [documented_between, total]
    constructor
    · intro whole file key
      rw [holds_iff, holds_iff]
      have same := Finset.eq_of_subset_of_card_le Finset.inter_subset_left whole.ge
      exact fun inner => Finset.inter_eq_left.1 same inner
    · intro every
      rw [Finset.inter_eq_left.2]
      rintro ⟨file, key⟩
      rw [← holds_iff, ← holds_iff]
      exact every file key

end KeyIndex

end Gazetteer
