import Gazetteer.Proofs.Project.Accounting
import Gazetteer.Proofs.Text.Numeral
import Mathlib.Data.Finset.Card

/-!
# Canonical registries

A registry is made of records as they come, and does not show how they came.  Its lists grow strictly, it holds what was
given and nothing else, and its totals count what is different (`canonical_registries`).  Symbols that share a key are
the one case in which what is given matters beyond the set: the first of them stays (`SymbolRegistry.first_of_mem`), as
sorting keeps their order.  The key of a symbol is a text, yet it tells symbols of a file apart, since the line is what
stands behind the last sign `@` (`Symbol.key_inj`).
-/

namespace Gazetteer

set_option autoImplicit false

variable {α β κ : Type}

/-! ## Keys -/

/-- A text is known by what stands before and behind the last occurrence of a character. -/
theorem append_cons_inj {x : α} {before before' after after' : List α} (first : x ∉ after) (second : x ∉ after') :
    before ++ x :: after = before' ++ x :: after' ↔ before = before' ∧ after = after' := by
  constructor
  · intro same
    obtain ⟨mid, longer, rest⟩ | ⟨mid, longer, rest⟩ := List.append_eq_append_iff.1 same
    all_goals
      cases mid with
      | nil => simp_all
      | cons y mid =>
        obtain ⟨-, rfl⟩ := List.cons.inj rest
        exact absurd (List.mem_append_right mid List.mem_cons_self) (by assumption)
  · rintro ⟨rfl, rfl⟩
    rfl

/-- The key of a symbol tells apart symbols of one file, whatever characters are in their names. -/
theorem Symbol.key_inj {s t : Symbol} (file : s.file = t.file) : s.key = t.key ↔ s.identity = t.identity := by
  have spelled (s : Symbol) : s.key.toList =
      s.file.toList ++ '#' :: (s.qualifiedName.toList ++ '@' :: Nat.toDigits 10 s.line) := by
    simp [key, toString]
  have digits (n : Nat) : '@' ∉ Nat.toDigits 10 n := by
    intro member
    cases isDigit_toDigits n '@' member
  have lines (m n : Nat) : Nat.toDigits 10 m = Nat.toDigits 10 n ↔ m = n :=
    ⟨fun same => by rw [← Text.ofDigits_toDigits m, same, Text.ofDigits_toDigits], fun same => by rw [same]⟩
  rw [← String.toList_inj, spelled, spelled, file, List.append_cancel_left_eq, List.cons.injEq,
    append_cons_inj (digits _) (digits _), lines, String.toList_inj]
  simp [identity, file]

/-! ## Registries by file -/

theorem card_map_of_injective [DecidableEq α] [DecidableEq β] {f : α → β} (apart : Function.Injective f) (xs : List α) :
    (xs.map f).toFinset.card = xs.toFinset.card := by
  have same : (xs.map f).toFinset = xs.toFinset.image f := by
    ext b
    simp
  rw [same, Finset.card_image_of_injective _ apart]

theorem SortedMap.size_eq_card {ν : Type} (m : SortedMap String ν) {keys : List String}
    (known : ∀ k, k ∈ m.keys ↔ k ∈ keys) : m.size = keys.toFinset.card := by
  have same : m.keys.toFinset = keys.toFinset := Finset.ext fun k => by simpa using known k
  have once : m.keys.Nodup := Entries.nodup_keys m.sorted
  rw [← same, List.toFinset_card_of_nodup once]
  exact (List.length_map _).symm

section Distils

variable {file : α → String} {entry : α → β} {key : β → κ} {distil : List α → List β}
  (distils : Distils file entry key distil) (xs : List α)

include distils

theorem Distils.mem_keys {f : String} {k : κ} :
    (∃ list, ((groupByFile file xs).map fun _ group => distil group).get? f = some list ∧ k ∈ list.map key) ↔
      ∃ a ∈ xs, file a = f ∧ key (entry a) = k := by
  simp only [get?_distilled]
  constructor
  · rintro ⟨_, ⟨rfl, -⟩, listed⟩
    obtain ⟨b, member, rfl⟩ := List.mem_map.1 listed
    obtain ⟨a, inner, rfl⟩ := List.mem_map.1 (distils.known _ b member)
    obtain ⟨given, here⟩ := List.mem_filter.1 inner
    exact ⟨a, given, of_decide_eq_true here, rfl⟩
  · rintro ⟨a, given, rfl, rfl⟩
    have inner : a ∈ xs.filter fun b => file b = file a := List.mem_filter.2 ⟨given, decide_eq_true rfl⟩
    exact ⟨_, ⟨rfl, List.ne_nil_of_mem inner⟩, distils.kept _ a inner⟩

theorem Distils.length_rows [DecidableEq κ] :
    ((groupByFile file xs).map fun _ group => distil group).rows.length =
      (xs.map fun a => (file a, key (entry a))).toFinset.card := by
  have once : ∀ f list, ((groupByFile file xs).map fun _ group => distil group).get? f = some list →
      (list.map key).Nodup := by
    intro f list found
    obtain ⟨rfl, -⟩ := get?_distilled.1 found
    exact distils.once _ f fun a member => of_decide_eq_true (List.mem_filter.1 member).2
  have nodup := SortedMap.nodup_rows once
  rw [← List.length_map (fun r => (r.1, key r.2)), ← List.toFinset_card_of_nodup nodup]
  refine congrArg Finset.card (Finset.ext ?_)
  rintro ⟨f, k⟩
  simp only [List.mem_toFinset, List.mem_map, Prod.mk.injEq, Prod.exists, SortedMap.mem_rows]
  constructor
  · rintro ⟨_, b, ⟨list, found, member⟩, rfl, rfl⟩
    exact (distils.mem_keys xs).1 ⟨list, found, List.mem_map_of_mem member⟩
  · intro given
    obtain ⟨list, found, listed⟩ := (distils.mem_keys xs).2 given
    obtain ⟨b, member, rfl⟩ := List.mem_map.1 listed
    exact ⟨f, b, ⟨list, found, member⟩, rfl, rfl⟩

end Distils

/-! ## Symbols -/

namespace SymbolRegistry

/-- The records of all files. -/
def records (r : SymbolRegistry) : List Symbol := r.files.values.flatten

variable {symbols : List Symbol} {file : String} {group : List Symbol} {s : Symbol}

theorem get?_files : (ofSymbols symbols).files.get? file = some group ↔
    dedupBy Symbol.sameKey ((symbols.filter fun s => s.file = file).mergeSort atMost) = group ∧
      (symbols.filter fun s => s.file = file) ≠ [] := get?_distilled

theorem file_of_mem (found : (ofSymbols symbols).files.get? file = some group) (member : s ∈ group) :
    s.file = file ∧ s ∈ symbols := by
  obtain ⟨rfl, -⟩ := get?_files.1 found
  have inner := List.mem_mergeSort.1 ((dedupBy_sublist _ _).subset member)
  simpa [and_comm] using inner

theorem ne_nil_of_found (found : (ofSymbols symbols).files.get? file = some group) : group ≠ [] := by
  obtain ⟨rfl, filled⟩ := get?_files.1 found
  obtain ⟨s, inner⟩ := List.exists_mem_of_ne_nil _ filled
  have kept := SymbolRegistry.distils.kept _ s inner
  intro none
  rw [none] at kept
  cases kept

theorem sorted_of_found (found : (ofSymbols symbols).files.get? file = some group) :
    group.Pairwise fun s t => s.place < t.place := by
  obtain ⟨rfl, -⟩ := get?_files.1 found
  exact sorts fun s inner => of_decide_eq_true (List.mem_filter.1 inner).2

/-- A record that stays is the first of those that share its key. -/
theorem first_of_mem (found : (ofSymbols symbols).files.get? file = some group) (member : s ∈ group) :
    symbols.find? (fun t => t.identity = s.identity) = some s := by
  have filed := (file_of_mem found member).1
  obtain ⟨rfl, filled⟩ := get?_files.1 found
  have once := SymbolRegistry.distils.once (symbols.filter fun t => t.file = file) file
    fun t inner => of_decide_eq_true (List.mem_filter.1 inner).2
  have kept := find?_of_mem once member
  have alike : ∀ a b : Symbol, a.sameKey b = true →
      decide (a.identity = s.identity) = decide (b.identity = s.identity) := by
    intro a b same
    rw [(a.sameKey_iff b).1 same]
  have together : ∀ a ∈ symbols.filter (fun t => t.file = file), ∀ b ∈ symbols.filter (fun t => t.file = file),
      decide (a.identity = s.identity) = true → decide (b.identity = s.identity) = true → a.place = b.place := by
    intro a _ b _ first second
    exact (Symbol.identity_eq_iff.1 ((of_decide_eq_true first).trans (of_decide_eq_true second).symm)).2
  rw [find?_dedupBy alike, ← List.head?_filter, filter_mergeSort_of_key atMost_iff together, List.head?_filter,
    List.find?_filter] at kept
  rw [← kept]
  refine congrArg (fun p => symbols.find? p) (funext fun t => ?_)
  by_cases same : t.identity = s.identity
  · have filed' : t.file = file := (congrArg Prod.fst same).trans filed
    simp [same, filed']
  · simp [same]

theorem length_rows : (ofSymbols symbols).files.rows.length = (symbols.map Symbol.identity).toFinset.card := by
  have rows := SymbolRegistry.distils.length_rows symbols
  have paired : (symbols.map fun s => (s.file, (id s : Symbol).identity)) =
      (symbols.map Symbol.identity).map fun i => (i.1, i) := by
    rw [List.map_map]
    rfl
  rw [paired, card_map_of_injective fun i j same => (Prod.mk.inj same).2] at rows
  exact rows

theorem count_keyIndex : (ofSymbols symbols).keyIndex.count = (symbols.map Symbol.identity).toFinset.card := by
  have sizes : (ofSymbols symbols).keyIndex.values.map (·.size) = (ofSymbols symbols).files.values.map (·.length) := by
    simp only [keyIndex, SortedMap.values, SortedMap.map, List.map_map]
    refine List.map_congr_left ?_
    rintro ⟨file, group⟩ listed
    have found := SortedMap.mem_entries_iff.1 listed
    have once : (group.map Symbol.key).Nodup := by
      refine List.pairwise_map.2 ((sorted_of_found found).imp_of_mem ?_)
      intro s t member member' before same
      have filed := (file_of_mem found member).1.trans (file_of_mem found member').1.symm
      exact before.ne (Symbol.identity_eq_iff.1 ((Symbol.key_inj filed).1 same)).2
    exact (SortedSet.size_ofList once).trans (List.length_map _)
  rw [KeyIndex.count, sizes, ← SortedMap.length_rows, length_rows]

theorem ofSymbols_records : ofSymbols (ofSymbols symbols).records = ofSymbols symbols := by
  have files : (ofSymbols (ofSymbols symbols).records).files = (ofSymbols symbols).files := by
    refine SortedMap.ext_get? fun file => Option.ext fun group => ?_
    have filed : ∀ f group, (ofSymbols symbols).files.get? f = some group → ∀ s ∈ group, s.file = f :=
      fun f group found s member => (file_of_mem found member).1
    have own := SortedMap.filter_flatten_values filed file
    rw [get?_files, records, own]
    cases found : (ofSymbols symbols).files.get? file with
    | none => simp
    | some group' =>
      have sorted := sorted_of_found found
      have once : group'.Pairwise fun s t => s.sameKey t = false := by
        refine sorted.imp fun {s t} before => Bool.eq_false_iff.2 fun same => ?_
        exact before.ne (Symbol.identity_eq_iff.1 ((s.sameKey_iff t).1 same)).2
      rw [Option.getD_some, List.mergeSort_of_pairwise (sorted.imp fun {s t} before => (atMost_iff s t).2 before.le),
        dedupBy_of_pairwise once, Option.some.injEq]
      exact and_iff_left (ne_nil_of_found found)
  change SymbolRegistry.mk (wordCount (ofSymbols (ofSymbols symbols).records).files.size)
    (groupCount (ofSymbols (ofSymbols symbols).records).files) (ofSymbols (ofSymbols symbols).records).files = _
  rw [files]
  rfl

theorem size_files : (ofSymbols symbols).files.size = (symbols.map Symbol.file).toFinset.card := by
  refine SortedMap.size_eq_card _ fun file => ?_
  rw [SortedMap.mem_keys_iff]
  simp only [get?_files, exists_eq_left', ne_eq, List.filter_eq_nil_iff, decide_eq_true_eq, not_forall, not_not,
    List.mem_map, exists_prop]

end SymbolRegistry

/-! ## Exports and imports -/

/-- Entries by file, each in its place once, and none but those given. -/
structure ListedByFile [LT κ] (file : α → String) (entry : α → β) (place : β → κ) (given : List α)
    (files : SortedMap String (List β)) : Prop where
  sorted : ∀ f list, files.get? f = some list → list ≠ [] ∧ list.Pairwise fun a b => place a < place b
  mem : ∀ a, (∃ list, files.get? (file a) = some list ∧ entry a ∈ list) ↔ a ∈ given

section Listed

variable {file : α → String} {entry : α → β} {distil : List α → List β} (distils : Distils file entry id distil)

include distils

theorem Distils.mem_distil {group : List α} {b : β} : b ∈ distil group ↔ b ∈ group.map entry := by
  refine ⟨distils.known group b, fun member => ?_⟩
  obtain ⟨a, inner, rfl⟩ := List.mem_map.1 member
  simpa using distils.kept group a inner

theorem Distils.groupCount_eq_card [DecidableEq α] [DecidableEq β]
    (apart : Function.Injective fun a => (file a, entry a)) (xs : List α) :
    groupCount ((groupByFile file xs).map fun _ group => distil group) = wordCount xs.toFinset.card := by
  have rows := distils.length_rows xs
  simp only [id] at rows
  rw [groupCount_eq, rows, card_map_of_injective apart]

variable [LinearOrder κ] {place : β → κ} (sorts : ∀ group, (distil group).Pairwise fun a b => place a < place b)

include sorts

theorem Distils.listedByFile (apart : Function.Injective fun a => (file a, entry a)) (xs : List α) :
    ListedByFile file entry place xs ((groupByFile file xs).map fun _ group => distil group) where
  sorted f list found := by
    obtain ⟨rfl, filled⟩ := get?_distilled.1 found
    obtain ⟨a, inner⟩ := List.exists_mem_of_ne_nil _ filled
    exact ⟨List.ne_nil_of_mem (distils.mem_distil.2 (List.mem_map_of_mem inner)), sorts _⟩
  mem a := by
    have known := distils.mem_keys xs (f := file a) (k := entry a)
    simp only [List.map_id, id] at known
    rw [known]
    constructor
    · rintro ⟨b, given, same, equal⟩
      cases apart (Prod.ext same equal)
      exact given
    · intro given
      exact ⟨a, given, rfl, rfl⟩

theorem Distils.congr {xs ys : List α} (same : ∀ a, a ∈ ys ↔ a ∈ xs) :
    ((groupByFile file ys).map fun _ group => distil group) =
      (groupByFile file xs).map fun _ group => distil group := by
  refine SortedMap.ext_get? fun f => Option.ext fun list => ?_
  have members (a : α) : (a ∈ ys.filter fun a => file a = f) ↔ a ∈ xs.filter fun a => file a = f := by
    rw [List.mem_filter, List.mem_filter, same]
  have lists : distil (ys.filter fun a => file a = f) = distil (xs.filter fun a => file a = f) := by
    refine eq_of_growing (sorts _) (sorts _) fun b => ?_
    simp only [distils.mem_distil, List.mem_map, members]
  have filled : (ys.filter fun a => file a = f) ≠ [] ↔ (xs.filter fun a => file a = f) ≠ [] := by
    simp only [ne_eq, List.eq_nil_iff_forall_not_mem, members]
  rw [get?_distilled, get?_distilled, lists, filled]

end Listed

theorem Export.entry_injective : Function.Injective fun e : Export => (e.file, e.entry) := by
  rintro ⟨file, name, kind, line⟩ ⟨file', name', kind', line'⟩ same
  cases same
  rfl

theorem SortedSet.growing (s : SortedSet String) : s.toList.Pairwise fun a b => a < b := by
  refine List.pairwise_map.2 (s.entries.sorted.imp ?_)
  intro a b order
  exact compare_lt_iff_lt.1 order

theorem Import.specifier_injective : Function.Injective fun i : Import => (i.file, i.specifier) := by
  rintro ⟨file, specifier⟩ ⟨file', specifier'⟩ same
  cases same
  rfl

/-! ## Findings -/

/-- Where a finding comes in a report. -/
def Finding.place (f : Finding) : ℕ ×ₗ String := toLex (f.category.rank, f.description)

theorem Finding.atMost_iff (f g : Finding) : f.atMost g = true ↔ f.place ≤ g.place := by
  simp [atMost, place, Prod.Lex.toLex_le_toLex]

theorem Category.rank_injective : Function.Injective rank := by
  intro c c' same
  cases c <;> cases c' <;> first | rfl | cases same

theorem Finding.place_injective : Function.Injective place := by
  rintro ⟨category, description⟩ ⟨category', description'⟩ same
  obtain ⟨rank, text⟩ := Prod.mk.inj same
  cases Category.rank_injective rank
  cases text
  rfl

/-! ## Canonical registries -/

theorem card_lt_of_length_lt [DecidableEq α] {xs : List α} {n : Nat} (fits : xs.length < n) : xs.toFinset.card < n :=
  (List.toFinset_card_le xs).trans_lt fits

/-- A registry of symbols is in order, and of the records with one key it holds the first. -/
structure SymbolRegistry.Canonical (symbols : List Symbol) (r : SymbolRegistry) : Prop where
  sorted : ∀ file group, r.files.get? file = some group → group ≠ [] ∧ group.Pairwise fun s t => s.place < t.place
  kept : ∀ s ∈ symbols, ∃ group, r.files.get? s.file = some group ∧ s.identity ∈ group.map Symbol.identity
  first : ∀ file group, r.files.get? file = some group → ∀ s ∈ group,
    s.file = file ∧ symbols.find? (fun t => t.identity = s.identity) = some s
  /-- The totals are kept in words. -/
  totals : r.totalFiles = wordCount (symbols.map Symbol.file).toFinset.card ∧
    r.totalSymbols = wordCount (symbols.map Symbol.identity).toFinset.card
  counted : r.keyIndex.count = (symbols.map Symbol.identity).toFinset.card
  fits : symbols.length < UInt64.size → r.totalFiles = (symbols.map Symbol.file).toFinset.card ∧
    r.totalSymbols = (symbols.map Symbol.identity).toFinset.card ∧ r.keyIndex.count = r.totalSymbols
  again : ofSymbols r.records = r

/-- A registry of exports is in order, holds what is exported, and does not tell in which order and how often. -/
structure ExportRegistry.Canonical (exports : List Export) (r : ExportRegistry) : Prop where
  listed : ListedByFile Export.file Export.entry ExportEntry.place exports r.files
  total : r.totalExports = wordCount exports.toFinset.card
  fits : exports.length < UInt64.size → r.totalExports = exports.toFinset.card
  same : ∀ exports', (∀ e, e ∈ exports' ↔ e ∈ exports) → ofExports exports' = r

/-- An import graph is in order, holds what is imported, and does not tell in which order and how often. -/
structure ImportGraph.Canonical (imports : List Import) (g : ImportGraph) : Prop where
  listed : ListedByFile Import.file Import.specifier id imports g.files
  total : g.totalEdges = wordCount imports.toFinset.card
  fits : imports.length < UInt64.size → g.totalEdges = imports.toFinset.card
  same : ∀ imports', (∀ i, i ∈ imports' ↔ i ∈ imports) → ofImports imports' = g

/-- A report is in order, holds what was found, and does not tell in which order and how often. -/
structure PatternReport.Canonical (findings : List Finding) (r : PatternReport) : Prop where
  sorted : r.findings.Pairwise fun f g => f.place < g.place
  mem : ∀ f, f ∈ r.findings ↔ f ∈ findings
  same : ∀ findings', (∀ f, f ∈ findings' ↔ f ∈ findings) → of r.rulesetVersion findings' = r

theorem SymbolRegistry.canonical (symbols : List Symbol) : (ofSymbols symbols).Canonical symbols := by
  have totals : (ofSymbols symbols).totalFiles = wordCount (symbols.map Symbol.file).toFinset.card ∧
      (ofSymbols symbols).totalSymbols = wordCount (symbols.map Symbol.identity).toFinset.card := by
    rw [← size_files, ← length_rows, ← groupCount_eq]
    exact ⟨rfl, rfl⟩
  exact {
    sorted := fun file group found => ⟨ne_nil_of_found found, sorted_of_found found⟩
    kept := fun s given => by
      obtain ⟨group, found, listed⟩ := (SymbolRegistry.distils.mem_keys symbols).2 ⟨s, given, rfl, rfl⟩
      exact ⟨group, found, listed⟩
    first := fun file group found s member => ⟨(file_of_mem found member).1, first_of_mem found member⟩
    totals
    counted := count_keyIndex
    fits := fun few => by
      have files := card_lt_of_length_lt ((List.length_map Symbol.file).trans_lt few)
      have keys := card_lt_of_length_lt ((List.length_map Symbol.identity).trans_lt few)
      rw [totals.1, totals.2, wordCount_of_lt files, wordCount_of_lt keys]
      exact ⟨rfl, rfl, count_keyIndex⟩
    again := ofSymbols_records }

theorem ExportRegistry.canonical (exports : List Export) : (ofExports exports).Canonical exports := by
  have total : (ofExports exports).totalExports = wordCount exports.toFinset.card :=
    ExportRegistry.distils.groupCount_eq_card Export.entry_injective exports
  exact {
    listed := ExportRegistry.distils.listedByFile sorts Export.entry_injective exports
    total
    fits := fun few => by rw [total, wordCount_of_lt (card_lt_of_length_lt few)]
    same := fun exports' same => by
      have files := ExportRegistry.distils.congr sorts same
      exact congrArg (fun files => ExportRegistry.mk (groupCount files) files) files }

theorem ImportGraph.canonical (imports : List Import) : (ofImports imports).Canonical imports := by
  have sorts (group : List Import) := (SortedSet.ofList (group.map Import.specifier)).growing
  have total : (ofImports imports).totalEdges = wordCount imports.toFinset.card :=
    ImportGraph.distils.groupCount_eq_card Import.specifier_injective imports
  exact {
    listed := ImportGraph.distils.listedByFile sorts Import.specifier_injective imports
    total
    fits := fun few => by rw [total, wordCount_of_lt (card_lt_of_length_lt few)]
    same := fun imports' same => by
      have files := ImportGraph.distils.congr sorts same
      exact congrArg (fun files => ImportGraph.mk (groupCount files) files) files }

theorem PatternReport.canonical (version : Nat) (findings : List Finding) :
    (of version findings).Canonical findings where
  sorted := pairwise_dedupBy_mergeSort Finding.atMost_iff Finding.place_injective findings
  mem _ := mem_dedupBy_mergeSort
  same findings' same := by
    refine congrArg (PatternReport.mk version) ?_
    have grows (fs : List Finding) := pairwise_dedupBy_mergeSort Finding.atMost_iff Finding.place_injective fs
    refine eq_of_growing (grows findings') (grows findings) fun f => ?_
    rw [mem_dedupBy_mergeSort, mem_dedupBy_mergeSort, same]

/-- What registries of symbols, exports, imports and findings hold. -/
theorem canonical_registries (symbols : List Symbol) (exports : List Export) (imports : List Import) (version : Nat)
    (findings : List Finding) :
    (SymbolRegistry.ofSymbols symbols).Canonical symbols ∧
      (∀ s t : Symbol, s.file = t.file → (s.key = t.key ↔ s.identity = t.identity)) ∧
      (ExportRegistry.ofExports exports).Canonical exports ∧ (ImportGraph.ofImports imports).Canonical imports ∧
      (PatternReport.of version findings).Canonical findings :=
  ⟨SymbolRegistry.canonical symbols, fun _ _ => Symbol.key_inj, ExportRegistry.canonical exports,
    ImportGraph.canonical imports, PatternReport.canonical version findings⟩

end Gazetteer
