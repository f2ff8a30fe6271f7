import Gazetteer.Proofs.Outline.Lines
import Gazetteer.Proofs.Registry.Encoding

/-!
# Content of a survey

Whatever the files of a repository hold, the numbers in the content of its manifests fit into the words in which they
are read (`Survey.fits_content`): counts are kept as words, and lines are those of trees.
-/

namespace Gazetteer

set_option autoImplicit false

theorem SymbolRegistry.line_of_mem {symbols : List Symbol} (lines : ∀ s ∈ symbols, s.line < UInt32.size) :
    ∀ e ∈ (ofSymbols symbols).files.entries, ∀ s ∈ e.2, s.line < UInt32.size := by
  intro e listed s member
  obtain ⟨group, inner, rfl⟩ := List.mem_map.1 listed
  exact forall_mem_groupByFile lines group inner s (List.mem_mergeSort.1 ((dedupBy_sublist _ _).subset member))

theorem ExportRegistry.line_of_mem {exports : List Export} (lines : ∀ e ∈ exports, e.line < UInt32.size) :
    ∀ e ∈ (ofExports exports).files.entries, ∀ entry ∈ e.2, entry.line < UInt32.size := by
  intro e listed entry member
  obtain ⟨group, inner, rfl⟩ := List.mem_map.1 listed
  obtain ⟨x, own, rfl⟩ := List.mem_map.1 (List.mem_mergeSort.1 ((dedupBy_sublist _ _).subset member))
  exact forall_mem_groupByFile lines group inner x own

theorem Survey.fits_content (c : ScanContext) (t : FileTree) (k : Kind) : ((take c t).content k).Fits := by
  cases k with
  | symbols =>
    exact ⟨wordCount_lt _, groupCount_lt _, SymbolRegistry.line_of_mem Extracts.line_of_mem_symbols⟩
  | exports => exact ⟨groupCount_lt _, ExportRegistry.line_of_mem Extracts.line_of_mem_exports⟩
  | imports => exact groupCount_lt _
  | techStack => trivial
  | patterns => exact (by decide : rulesetVersion < UInt32.size)
  | apiSurface => trivial

end Gazetteer
