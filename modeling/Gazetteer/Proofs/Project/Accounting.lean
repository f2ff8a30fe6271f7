import Gazetteer.Proofs.Project.Extracts
import Gazetteer.Proofs.Project.Walk
import Gazetteer.Proofs.Registry.Groups

/-!
# What a survey accounts for

A survey loses no file and invents none: each scanned file is extracted or complained about, once and in order, and
the registries hold by file what the extractions yield, and nothing else (`Survey.accounts`).  All that an extraction
yields is of its own file, so groups by file keep extractions apart; within a group a registry leaves out only what
repeats a key (`Distils`).
-/

namespace Gazetteer

set_option autoImplicit false

variable {α β κ : Type}

/-! ## Registries -/

/-- A registry by file holds what some extractions yield: nothing else, of every key something, and no key twice. -/
structure Registers (extractions : List Extraction) (yields : Extraction → List β) (key : β → κ)
    (files : SortedMap String (List β)) : Prop where
  known : ∀ file group, files.get? file = some group →
    group ≠ [] ∧ ∀ r ∈ group, ∃ x ∈ extractions, x.file = file ∧ r ∈ yields x
  kept : ∀ x ∈ extractions, ∀ r ∈ yields x, ∃ group, files.get? x.file = some group ∧ key r ∈ group.map key
  once : ∀ file group, files.get? file = some group → (group.map key).Nodup

/-- How a registry makes its list for a file from a group of records: from each an entry, and one entry of each key. -/
structure Distils (file : α → String) (entry : α → β) (key : β → κ) (distil : List α → List β) : Prop where
  known : ∀ group, ∀ r ∈ distil group, r ∈ group.map entry
  kept : ∀ group, ∀ a ∈ group, key (entry a) ∈ (distil group).map key
  once : ∀ group f, (∀ a ∈ group, file a = f) → ((distil group).map key).Nodup

theorem Distils.registers {file : α → String} {entry : α → β} {key : β → κ} {distil : List α → List β}
    (distils : Distils file entry key distil) {extractions : List Extraction} {own : Extraction → List α}
    (filed : ∀ x ∈ extractions, ∀ a ∈ own x, file a = x.file) :
    Registers extractions (fun x => (own x).map entry) key
      ((groupByFile file (extractions.flatMap own)).map fun _ group => distil group) := by
  refine ⟨fun f list here => ?_, fun x listed r member => ?_, fun f list here => ?_⟩
  · rw [SortedMap.get?_map, Option.map_eq_some_iff] at here
    obtain ⟨group, found, rfl⟩ := here
    obtain ⟨rfl, filled⟩ := get?_groupByFile_eq_some.1 found
    refine ⟨fun none => ?_, fun r member => ?_⟩
    · obtain ⟨a, inner⟩ := List.exists_mem_of_ne_nil _ filled
      have lost := distils.kept _ a inner
      rw [none] at lost
      cases lost
    · obtain ⟨a, inner, rfl⟩ := List.mem_map.1 (distils.known _ r member)
      obtain ⟨given, here⟩ := List.mem_filter.1 inner
      obtain ⟨x, listed, yielded⟩ := List.mem_flatMap.1 given
      exact ⟨x, listed, (filed x listed a yielded).symm.trans (of_decide_eq_true here), List.mem_map_of_mem yielded⟩
  · obtain ⟨a, yielded, rfl⟩ := List.mem_map.1 member
    have inner : a ∈ (extractions.flatMap own).filter fun b => file b = x.file :=
      List.mem_filter.2 ⟨List.mem_flatMap.2 ⟨x, listed, yielded⟩, decide_eq_true (filed x listed a yielded)⟩
    refine ⟨_, ?_, distils.kept _ a inner⟩
    rw [SortedMap.get?_map, get?_groupByFile_eq_some.2 ⟨rfl, List.ne_nil_of_mem inner⟩, Option.map_some]
  · rw [SortedMap.get?_map, Option.map_eq_some_iff] at here
    obtain ⟨group, found, rfl⟩ := here
    obtain ⟨rfl, -⟩ := get?_groupByFile_eq_some.1 found
    exact distils.once _ f fun a member => of_decide_eq_true (List.mem_filter.1 member).2

/-! ### Symbols -/

/-- What identifies a symbol: its file, its qualified name and its line. -/
def Symbol.identity (s : Symbol) : String × String × Nat := (s.file, s.qualifiedName, s.line)

/-- Where a symbol comes in the list for its file. -/
def Symbol.place (s : Symbol) : ℕ ×ₗ String := toLex (s.line, s.qualifiedName)

theorem Symbol.identity_eq_iff {s t : Symbol} : s.identity = t.identity ↔ s.file = t.file ∧ s.place = t.place := by
  constructor
  · intro same
    obtain ⟨file, rest⟩ := Prod.mk.inj same
    obtain ⟨name, line⟩ := Prod.mk.inj rest
    exact ⟨file, congrArg toLex (Prod.ext line name)⟩
  · rintro ⟨file, same⟩
    obtain ⟨line, name⟩ := Prod.ext_iff.1 same
    exact Prod.ext file (Prod.ext name line)

theorem Symbol.sameKey_iff (s t : Symbol) : s.sameKey t = true ↔ s.identity = t.identity := by
  simp [sameKey, identity, and_assoc]

theorem SymbolRegistry.atMost_iff (s t : Symbol) : atMost s t = true ↔ s.place ≤ t.place := by
  simp [atMost, Symbol.place, Prod.Lex.toLex_le_toLex]

/-- The symbols of one file are sorted, and no two of them share a place. -/
theorem SymbolRegistry.sorts {group : List Symbol} {file : String} (filed : ∀ s ∈ group, s.file = file) :
    (dedupBy Symbol.sameKey (group.mergeSort atMost)).Pairwise fun s t => s.place < t.place := by
  refine pairwise_dedupBy (pairwise_mergeSort_of_key atMost_iff group) ?_
  intro s member t member' same
  rw [List.mem_mergeSort] at member member'
  exact (s.sameKey_iff t).2 (Symbol.identity_eq_iff.2 ⟨(filed s member).trans (filed t member').symm, same⟩)

theorem SymbolRegistry.distils : Distils Symbol.file id Symbol.identity fun group =>
    dedupBy Symbol.sameKey (group.mergeSort atMost) where
  known group s member := by
    rw [List.map_id]
    exact List.mem_mergeSort.1 ((dedupBy_sublist _ _).subset member)
  kept group s member := by
    exact (mem_map_dedupBy fun s t => (s.sameKey_iff t).1).2 (List.mem_map_of_mem (List.mem_mergeSort.2 member))
  once group f filed := by
    refine List.pairwise_map.2 ((SymbolRegistry.sorts filed).imp ?_)
    intro s t order same
    exact order.ne (Symbol.identity_eq_iff.1 same).2

/-! ### Exports -/

/-- The entry of an export in the list for its file. -/
def Export.entry (e : Export) : ExportEntry := ⟨e.name, e.kind, e.line⟩

/-- Where an entry comes in its list. -/
def ExportEntry.place (e : ExportEntry) : ℕ ×ₗ String ×ₗ ℕ := toLex (e.line, toLex (e.name, e.kind.rank))

theorem ExportEntry.atMost_iff (a b : ExportEntry) : a.atMost b = true ↔ a.place ≤ b.place := by
  simp [atMost, place, Prod.Lex.toLex_le_toLex]

theorem ExportKind.rank_injective : Function.Injective rank := by
  intro k k' same
  cases k <;> cases k' <;> first | rfl | cases same

theorem ExportEntry.place_injective : Function.Injective place := by
  rintro ⟨name, kind, line⟩ ⟨name', kind', line'⟩ same
  obtain ⟨line, rest⟩ := Prod.mk.inj same
  obtain ⟨name, rank⟩ := Prod.mk.inj rest
  cases line
  cases name
  cases ExportKind.rank_injective rank
  rfl

theorem ExportRegistry.sorts (group : List Export) :
    (dedupBy (fun a b : ExportEntry => a = b) ((group.map Export.entry).mergeSort ExportEntry.atMost)).Pairwise
      fun a b => a.place < b.place :=
  pairwise_dedupBy_mergeSort ExportEntry.atMost_iff ExportEntry.place_injective _

theorem ExportRegistry.distils : Distils Export.file Export.entry id fun group =>
    dedupBy (fun a b : ExportEntry => a = b) ((group.map Export.entry).mergeSort ExportEntry.atMost) where
  known group r := mem_dedupBy_mergeSort.1
  kept group e member := by
    rw [List.map_id]
    exact mem_dedupBy_mergeSort.2 (List.mem_map_of_mem member)
  once group f _ := by
    rw [List.map_id]
    exact (ExportRegistry.sorts group).imp fun order same => order.ne (congrArg ExportEntry.place same)

/-! ### Imports -/

theorem ImportGraph.distils : Distils Import.file Import.specifier id fun group =>
    (SortedSet.ofList (group.map Import.specifier)).toList where
  known group r := SortedSet.mem_toList_ofList.1
  kept group i member := by
    rw [List.map_id]
    exact SortedSet.mem_toList_ofList.2 (List.mem_map_of_mem member)
  once group f _ := by
    rw [List.map_id]
    exact SortedSet.nodup_toList _

/-! ## Surveys -/

namespace Survey

variable {c : ScanContext} {t : FileTree}

/-- A survey of a tree accounts for every file that is scanned, and for no other. -/
structure Accounts (c : ScanContext) (t : FileTree) (s : Survey) : Prop where
  scanned : s.files = (c.scan t).map (·.relative)
  /-- No path comes twice. -/
  sorted : s.files.Pairwise (· < ·)
  sortedExtractions : s.extracts.files.Pairwise fun x y => x.file < y.file
  sortedComplaints : s.extracts.complaints.Pairwise fun p q => p.file < q.file
  /-- Every scanned file is extracted or complained about, once. -/
  whole : (s.extracts.files.map (·.file) ++ s.extracts.complaints.map (·.file)).Perm s.files
  extracted : ∀ x, x ∈ s.extracts.files ↔ ∃ f ∈ c.scan t, f.relative = x.file ∧ f.extract c.imports = .ok x
  refused : ∀ p, p ∈ s.extracts.complaints ↔
    ∃ f ∈ c.scan t, ∃ e, f.extract c.imports = .error e ∧ p = ⟨f.relative, e.message⟩
  symbols : ∃ r, s.content .symbols = .symbols r ∧ Registers s.extracts.files (·.symbols) Symbol.identity r.files
  exports : ∃ r, s.content .exports = .exports r ∧ Registers s.extracts.files (·.exports.map Export.entry) id r.files
  imports : ∃ r, s.content .imports = .imports r ∧ Registers s.extracts.files (·.imports) id r.files

theorem accounts (c : ScanContext) (t : FileTree) : Accounts c t (take c t) := by
  have sorted : ((c.scan t).map (·.relative)).Pairwise (· < ·) := List.pairwise_map.2 (ScanContext.sorted_scan c t)
  have distinct : ((c.scan t).map (·.relative)).Nodup := sorted.imp fun order => order.ne
  have belongs : ∀ x ∈ (take c t).extracts.files, x.Belongs x.file := by
    intro x listed
    obtain ⟨f, -, done⟩ := Extracts.mem_files.1 listed
    have belongs := SourceFile.belongs_of_extract done
    rwa [← belongs.own] at belongs
  exact {
    scanned := rfl
    sorted
    sortedExtractions := Extracts.sorted_files distinct
    sortedComplaints := Extracts.sorted_complaints distinct
    whole := Extracts.perm_paths c.imports (c.scan t)
    extracted := fun x => by
      refine Extracts.mem_files.trans (exists_congr fun f => and_congr_right fun _ => ?_)
      exact ⟨fun done => ⟨(SourceFile.belongs_of_extract done).own.symm, done⟩, And.right⟩
    refused := fun p => Extracts.mem_complaints
    symbols := ⟨_, rfl, by
      have registers := SymbolRegistry.distils.registers fun x listed => (belongs x listed).symbols
      simp only [List.map_id] at registers
      exact registers⟩
    exports := ⟨_, rfl, ExportRegistry.distils.registers fun x listed => (belongs x listed).exports⟩
    imports := ⟨_, rfl, by
      have filed : ∀ x ∈ (take c t).extracts.files, ∀ i ∈ x.imports.map (Import.mk x.file), i.file = x.file := by
        intro x _ i member
        obtain ⟨specifier, -, rfl⟩ := List.mem_map.1 member
        rfl
      have registers := ImportGraph.distils.registers filed
      simp only [List.map_map, Function.comp_def, List.map_id'] at registers
      exact registers⟩ }

end Survey

end Gazetteer
