import Gazetteer.Project.Survey
import Gazetteer.Proofs.Outcome
import Gazetteer.Proofs.Ordered.Lookup
import Mathlib.Data.String.Basic

/-!
# Extracting files

Each file is extracted on its own, and what is extracted from it is of that file (`SourceFile.belongs_of_extract`).  The
results are brought into the order of the paths, so it does not matter in which order the files come
(`Extracts.ofFiles_perm`), and between them the extractions and the complaints hold every path once
(`Extracts.perm_paths`).
-/

namespace Gazetteer

set_option autoImplicit false

variable {rules : ImportRules}

/-! ## One file -/

/-- An extraction is of a file, and so is all that it yields. -/
structure Extraction.Belongs (x : Extraction) (file : String) : Prop where
  own : x.file = file
  symbols : ∀ s ∈ x.symbols, s.file = file
  exports : ∀ e ∈ x.exports, e.file = file

theorem Outline.Declaration.file_symbol (file : String) (isExported : Bool) (d : Declaration) :
    (d.symbol file isExported).file = file := by
  cases d with
  | method node held container name => cases held <;> rfl
  | _ => rfl

theorem Outline.belongs_extractTree (file : String) (rules : ImportRules) (root : Syntax.Tree) :
    (extractTree file rules root).Belongs file := by
  refine ⟨rfl, fun s member => ?_, fun e member => ?_⟩
  · obtain ⟨d, -, rfl⟩ := List.mem_map.1 (List.mem_mergeSort.1 member)
    exact d.file_symbol file _
  · obtain ⟨b, -, rfl⟩ := List.mem_map.1 member
    rfl

namespace SourceFile

variable {f : SourceFile} {x : Extraction}

/-- What a file yields is what the tree of its text yields. -/
theorem exists_tree_of_extract (done : f.extract rules = .ok x) :
    ∃ root, x = Outline.extractTree f.relative rules root := by
  unfold SourceFile.extract at done
  split at done
  · cases done
  · split at done
    · cases done
    · unfold Gazetteer.extract extractText at done
      split at done
      · split at done
        · exact ⟨_, (Except.ok.inj done).symm⟩
        · cases done
      · cases done

theorem belongs_of_extract (done : f.extract rules = .ok x) : x.Belongs f.relative := by
  obtain ⟨root, rfl⟩ := exists_tree_of_extract done
  exact Outline.belongs_extractTree f.relative rules root

end SourceFile

/-! ## Some files -/

namespace Extracts

/-- What came of a file, under its path. -/
abbrev Result := String × Except ExtractError Extraction

/-- The results of some files, in the order of their paths. -/
def results (rules : ImportRules) (files : List SourceFile) : List Result :=
  (files.map fun f => (f.relative, f.extract rules)).mergeSort fun a b => a.1 ≤ b.1

/-- The complaint about a file that could not be extracted. -/
def complaint? (r : Result) : Option Complaint :=
  match r with
  | (_, .ok _) => none
  | (file, .error e) => some ⟨file, e.message⟩

variable {files files' : List SourceFile}

theorem ofFiles_eq (rules : ImportRules) (files : List SourceFile) : ofFiles rules files =
    ⟨(results rules files).filterMap fun r => r.2.toOption, (results rules files).filterMap complaint?⟩ := by
  refine congrArg (Extracts.mk _) (List.filterMap_congr fun r _ => ?_)
  obtain ⟨file, _ | _⟩ := r <;> rfl

theorem mem_results {r : Result} : r ∈ results rules files ↔ ∃ f ∈ files, (f.relative, f.extract rules) = r := by
  rw [results, List.mem_mergeSort, List.mem_map]

theorem mem_files {x : Extraction} :
    x ∈ (ofFiles rules files).files ↔ ∃ f ∈ files, f.extract rules = .ok x := by
  rw [ofFiles_eq, List.mem_filterMap]
  constructor
  · rintro ⟨r, listed, done⟩
    obtain ⟨f, member, rfl⟩ := mem_results.1 listed
    exact ⟨f, member, Outcome.toOption_eq_some.1 done⟩
  · rintro ⟨f, member, done⟩
    exact ⟨_, mem_results.2 ⟨f, member, rfl⟩, Outcome.toOption_eq_some.2 done⟩

theorem mem_complaints {p : Complaint} :
    p ∈ (ofFiles rules files).complaints ↔
      ∃ f ∈ files, ∃ e, f.extract rules = .error e ∧ p = ⟨f.relative, e.message⟩ := by
  rw [ofFiles_eq, List.mem_filterMap]
  constructor
  · rintro ⟨r, listed, told⟩
    obtain ⟨f, member, rfl⟩ := mem_results.1 listed
    cases result : f.extract rules with
    | ok x =>
      rw [result] at told
      cases told
    | error e =>
      rw [result] at told
      cases told
      exact ⟨f, member, e, result, rfl⟩
  · rintro ⟨f, member, e, failed, rfl⟩
    refine ⟨_, mem_results.2 ⟨f, member, rfl⟩, ?_⟩
    rw [failed]
    rfl

/-! ## Order -/

theorem perm_results (rules : ImportRules) (files : List SourceFile) :
    (results rules files).Perm (files.map fun f => (f.relative, f.extract rules)) := List.mergeSort_perm _ _

theorem file_of_result {r : Result} (listed : r ∈ results rules files) {x : Extraction} (done : r.2.toOption = some x) :
    x.file = r.1 := by
  obtain ⟨f, -, rfl⟩ := mem_results.1 listed
  exact (SourceFile.belongs_of_extract (Outcome.toOption_eq_some.1 done)).own

theorem file_of_complaint {r : Result} {p : Complaint} (told : complaint? r = some p) : p.file = r.1 := by
  obtain ⟨file, _ | _⟩ := r
  · cases told
    rfl
  · cases told

/-- Different paths come strictly sorted. -/
theorem sorted_results (distinct : (files.map (·.relative)).Nodup) :
    (results rules files).Pairwise fun a b => a.1 < b.1 := by
  have sorted : (results rules files).Pairwise fun a b => a.1 ≤ b.1 :=
    pairwise_mergeSort_of_key (fun _ _ => decide_eq_true_iff) _
  have apart : ((results rules files).map (·.1)).Nodup := by
    refine ((perm_results rules files).map _).nodup_iff.2 ?_
    rwa [List.map_map]
  exact (sorted.and (List.pairwise_map.1 apart)).imp fun ⟨least, other⟩ => lt_of_le_of_ne least other

/-- It does not matter in which order files with different paths come. -/
theorem ofFiles_perm (perm : files.Perm files') (distinct : (files.map (·.relative)).Nodup) :
    ofFiles rules files' = ofFiles rules files := by
  have distinct' : (files'.map (·.relative)).Nodup := (perm.map _).nodup_iff.1 distinct
  have same : results rules files' = results rules files := by
    refine List.Perm.eq_of_pairwise (fun a b _ _ first second => ?_) (sorted_results distinct')
      (sorted_results distinct) ?_
    · exact absurd (first.trans second) (lt_irrefl a.1)
    · exact (perm_results rules files').trans ((perm.symm.map _).trans (perm_results rules files).symm)
  rw [ofFiles_eq, ofFiles_eq, same]

theorem sorted_files (distinct : (files.map (·.relative)).Nodup) :
    (ofFiles rules files).files.Pairwise fun x y => x.file < y.file := by
  rw [ofFiles_eq]
  refine List.pairwise_filterMap.2 ((sorted_results distinct).imp_of_mem ?_)
  intro r r' listed listed' order x done y done'
  rwa [file_of_result listed done, file_of_result listed' done']

theorem sorted_complaints (distinct : (files.map (·.relative)).Nodup) :
    (ofFiles rules files).complaints.Pairwise fun p q => p.file < q.file := by
  rw [ofFiles_eq]
  refine List.pairwise_filterMap.2 ((sorted_results distinct).imp fun order p told q told' => ?_)
  rwa [file_of_complaint told, file_of_complaint told']

/-- Every path is that of one extraction or of one complaint. -/
theorem perm_paths (rules : ImportRules) (files : List SourceFile) :
    ((ofFiles rules files).files.map (·.file) ++ (ofFiles rules files).complaints.map (·.file)).Perm
      (files.map (·.relative)) := by
  have split (rs : List Result) (own : ∀ r ∈ rs, ∀ x, r.2.toOption = some x → x.file = r.1) :
      ((rs.filterMap (·.2.toOption)).map (·.file) ++ (rs.filterMap complaint?).map (·.file)).Perm (rs.map (·.1)) := by
    induction rs with
    | nil => exact .nil
    | cons r rs ih =>
      obtain ⟨head, tail⟩ := List.forall_mem_cons.1 own
      obtain ⟨file, e | x⟩ := r
      · exact List.perm_middle.trans ((ih tail).cons file)
      · have here : x.file = file := head x rfl
        rw [← here]
        exact (ih tail).cons x.file
  rw [ofFiles_eq]
  refine (split _ fun r listed x => file_of_result listed).trans ?_
  have paths := (perm_results rules files).map (·.1)
  rwa [List.map_map] at paths

end Extracts

end Gazetteer
