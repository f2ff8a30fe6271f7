import Gazetteer.Project.Scan
import Gazetteer.Proofs.Files.Folders
import Gazetteer.Proofs.Files.Listing
import Mathlib.Data.List.Infix

/-!
# The walk for source files

A walk goes from listing to listing and does not look into what it leaves out.  It comes by the files below its start
that are admitted together with every folder on the way (`ScanContext.walk_files`), so that what is scanned are the
files below the root that pass one test each (`ScanContext.scan_eq_filter`).  Without files with rules the test is about
the path alone (`ScanContext.scan_of_unruled`).
-/

namespace Gazetteer

set_option autoImplicit false

namespace ScanContext

variable {c : ScanContext} {rules : List RuleFile} {t : FileTree} {lead names : List String}

/-- Whether a walk that is in a folder gets from there to a file: it and every folder on the way are admitted. -/
def leadsTo (c : ScanContext) (rules : List RuleFile) (lead : List String) : (names : List String) → Bool
  | [] => true
  | name :: rest => c.admits rules (lead ++ [name]) !rest.isEmpty && c.leadsTo rules (lead ++ [name]) rest

/-- Whether a file below the root, by its names from there on, is a source file that a walk gets to. -/
def finds (c : ScanContext) (rules : List RuleFile) (names : List String) : Bool :=
  c.leadsTo rules [] names && c.isSource (String.intercalate "/" names)

/-- Whether a walk that may go so many folders down gets from a folder to a file. -/
def reaches (c : ScanContext) (rules : List RuleFile) (depth : Nat) (lead names : List String) : Bool :=
  names.length ≤ depth && c.leadsTo rules lead names

variable {depth : Nat} {name : String}

theorem reaches_zero (below : names ≠ []) : c.reaches rules 0 lead names = false := by
  rw [reaches, decide_eq_false (Nat.not_le.2 (List.length_pos_iff.2 below)), Bool.false_and]

theorem reaches_file : c.reaches rules (depth + 1) lead [name] = c.admits rules (lead ++ [name]) false := by
  rw [reaches, leadsTo, leadsTo, Bool.and_true, List.length_singleton, decide_eq_true (Nat.le_add_left 1 depth)]
  rfl

theorem reaches_folder (below : names ≠ []) : c.reaches rules (depth + 1) lead (name :: names) =
    (c.admits rules (lead ++ [name]) true && c.reaches rules depth (lead ++ [name]) names) := by
  rw [reaches, reaches, leadsTo, List.isEmpty_eq_false_iff.2 below, Bool.not_false, Bool.and_left_comm,
    List.length_cons, decide_eq_decide.2 Nat.succ_le_succ_iff]

/-! ## What a walk comes by -/

/-- A walk comes by the files that it reaches, in order. -/
theorem walk_files (c : ScanContext) (rules : List RuleFile) (t : FileTree) (depth : Nat) (lead : List String) :
    (c.walk rules t depth lead).filterMap (·.file?) =
      ((t.filesBelow (c.root ++ lead)).filter fun f => c.reaches rules depth lead f.1).map fun f =>
        ⟨lead ++ f.1, f.2⟩ := by
  induction depth generalizing lead with
  | zero =>
    rw [List.filter_eq_nil_iff.2 fun f below => ?_]
    · rfl
    · rw [reaches_zero (FileTree.mem_filesBelow.1 below).1]
      exact Bool.false_ne_true
  | succ depth ih =>
    rw [FileTree.filesBelow_eq_flatMap, List.filter_flatMap, List.map_flatMap, walk]
    obtain listed | ⟨failed, -, empty⟩ := FileTree.list_cases t (c.root ++ lead)
    · rw [listed]
      dsimp only
      rw [List.filterMap_flatMap]
      refine List.flatMap_congr fun ⟨name, e⟩ _ => ?_
      cases e with
      | file bytes =>
        rw [FileTree.filesOf, List.filter_singleton, reaches_file]
        cases c.admits rules (lead ++ [name]) false <;> rfl
      | folder =>
        have inner : (t.filesBelow (c.root ++ lead ++ [name])).filter
              ((fun f => c.reaches rules (depth + 1) lead f.1) ∘ fun f => (name :: f.1, f.2)) =
            (t.filesBelow (c.root ++ lead ++ [name])).filter
              fun f => c.admits rules (lead ++ [name]) true && c.reaches rules depth (lead ++ [name]) f.1 :=
          List.filter_congr fun f below => reaches_folder (FileTree.mem_filesBelow.1 below).1
        rw [FileTree.filesOf, List.filter_map, List.map_map, inner]
        cases c.admits rules (lead ++ [name]) true with
        | true =>
          dsimp only
          rw [if_pos rfl, ih, ← List.append_assoc]
          refine List.map_congr_left fun f _ => ?_
          rw [Function.comp_apply, ← List.append_cons lead name f.1]
        | false =>
          dsimp only
          simp only [Bool.false_and, List.filter_false]
          rfl
    · rw [failed, empty]
      rfl

/-- Where the start can be listed, nothing stops a walk. -/
theorem walk_issues (c : ScanContext) (rules : List RuleFile) (t : FileTree) (depth : Nat)
    (listed : t.list (c.root ++ lead) = .ok (t.items (c.root ++ lead))) :
    (c.walk rules t depth lead).filterMap (·.issue?) = [] := by
  induction depth generalizing lead with
  | zero => rfl
  | succ depth ih =>
    rw [walk, listed]
    dsimp only
    rw [List.filterMap_flatMap, List.flatMap_eq_nil_iff]
    rintro ⟨name, e⟩ inner
    cases e with
    | file bytes =>
      dsimp only
      split <;> rfl
    | folder =>
      dsimp only
      split
      · refine ih ?_
        rw [← List.append_assoc]
        exact FileTree.list_of_mem_items inner
      · rfl

/-- A walk from a folder looks into all that it comes to. -/
theorem scanIssues_eq_nil (root : t.get? c.root = some .folder) : c.scanIssues t = [] := by
  refine walk_issues c (RuleFile.all t) t (t.depth + 1) ?_
  rw [List.append_nil]
  refine (FileTree.list_cases t c.root).resolve_right fun absent => ?_
  rw [root] at absent
  cases absent.2.1

/-- What is scanned are the files below the root that are found, by their paths. -/
theorem scan_eq_filter (c : ScanContext) (t : FileTree) :
    c.scan t = (SortedMap.ofList (((t.filesBelow c.root).filter fun f => c.finds (RuleFile.all t) f.1).map fun f =>
      (String.intercalate "/" f.1, SourceFile.mk f.1 f.2))).values := by
  have found : ((c.sights t).filterMap (·.file?)).filter (fun f => c.isSource f.relative) =
      ((t.filesBelow c.root).filter fun f => c.finds (RuleFile.all t) f.1).map fun f => SourceFile.mk f.1 f.2 := by
    rw [sights, walk_files, List.append_nil, List.filter_map, List.filter_filter]
    refine congrArg (List.map _) (List.filter_congr fun f below => ?_)
    -- no file is too far down for the walk
    have near : f.1.length ≤ t.depth + 1 := by
      have whole := FileTree.length_le_depth (FileTree.mem_filesBelow.1 below).2
      rw [List.length_append] at whole
      omega
    rw [reaches, decide_eq_true near, Bool.true_and, Bool.and_comm]
    rfl
  rw [scan, found, List.map_map]
  rfl

theorem leadsTo_iff : c.leadsTo rules lead names = true ↔
    ∀ front, front ≠ [] → front <+: names → c.admits rules (lead ++ front) (front ≠ names) = true := by
  induction names generalizing lead with
  | nil => exact iff_of_true rfl fun front some leads => absurd (List.prefix_nil.1 leads) some
  | cons name rest ih =>
    have first : (decide ([name] ≠ name :: rest)) = !rest.isEmpty := by cases rest <;> simp
    have later (front : List String) : decide (name :: front ≠ name :: rest) = decide (front ≠ rest) := by simp
    rw [leadsTo, Bool.and_eq_true, ih]
    constructor
    · rintro ⟨here, below⟩ front some leads
      match front, some with
      | name' :: front, _ =>
        obtain ⟨rfl, inner⟩ := List.cons_prefix_cons.1 leads
        by_cases last : front = []
        · rw [last, first]
          exact here
        · rw [List.append_cons, later]
          exact below front last inner
    · intro each
      refine ⟨?_, fun front some leads => ?_⟩
      · rw [← first]
        exact each [name] (List.cons_ne_nil _ _) (List.cons_prefix_cons.2 ⟨rfl, List.nil_prefix⟩)
      · rw [← List.append_cons, ← later]
        exact each (name :: front) (List.cons_ne_nil _ _) (List.cons_prefix_cons.2 ⟨rfl, leads⟩)

/-- What is found is admitted and has the extension of a source file. -/
theorem admits_of_finds (some : names ≠ []) (found : c.finds rules names = true) :
    c.admits rules names false = true ∧ c.isSource (String.intercalate "/" names) = true := by
  rw [finds, Bool.and_eq_true, leadsTo_iff] at found
  have whole := found.1 names some List.prefix_rfl
  rw [decide_eq_false (not_not_intro rfl)] at whole
  exact ⟨whole, found.2⟩

/-- What is found is judged a source file by its own path. -/
theorem judged_of_finds (some : names ≠ []) (found : c.finds rules names = true) :
    c.isSource (String.intercalate "/" names) = true ∧ c.isExcluded (String.intercalate "/" names) false = false := by
  obtain ⟨admitted, source⟩ := admits_of_finds some found
  rw [admits, Bool.and_eq_true, Bool.not_eq_true'] at admitted
  exact ⟨source, admitted.2⟩

/-! ## What is scanned -/

/-- What is scanned comes in the order of its paths, and no path comes twice. -/
theorem sorted_scan (c : ScanContext) (t : FileTree) : (c.scan t).Pairwise fun f g => f.relative < g.relative := by
  rw [scan]
  generalize ((c.sights t).filterMap (·.file?)).filter (fun f => c.isSource f.relative) = found
  have keyed {e : String × SourceFile} (member : e ∈ (SortedMap.ofList (found.map fun f => (f.relative, f))).entries) :
      e.1 = e.2.relative := by
    obtain ⟨f, -, rfl⟩ := List.mem_map.1 (SortedMap.mem_of_mem_ofList member)
    rfl
  refine List.pairwise_map.2 ((SortedMap.sorted _).imp_of_mem fun first second order => ?_)
  rw [← keyed first, ← keyed second]
  exact compareOfLessAndEq_eq_lt.1 order

/-- In a tree whose locations are names, no two files have the same path. -/
theorem mem_scan (valid : t.Valid) {f : SourceFile} : f ∈ c.scan t ↔
    f.names ≠ [] ∧ t.get? (c.root ++ f.names) = some (.file f.bytes) ∧ c.finds (RuleFile.all t) f.names = true := by
  have once : (((t.filesBelow c.root).filter fun f => c.finds (RuleFile.all t) f.1).map fun f =>
      (String.intercalate "/" f.1, SourceFile.mk f.1 f.2)).map (·.1) |>.Nodup := by
    rw [List.map_map]
    refine List.Nodup.map_on ?_ ((Entries.nodup_keys (FileTree.sorted_filesBelow t c.root)).of_map _ |>.filter _)
    rintro ⟨names, bytes⟩ first ⟨names', bytes'⟩ second same
    obtain ⟨some, here⟩ := FileTree.mem_filesBelow.1 (List.mem_filter.1 first).1
    obtain ⟨some', there⟩ := FileTree.mem_filesBelow.1 (List.mem_filter.1 second).1
    have plain : ∀ s ∈ names, Path.IsName s := fun s member =>
      valid.names _ _ here s (List.mem_append_right _ member)
    have plain' : ∀ s ∈ names', Path.IsName s := fun s member =>
      valid.names _ _ there s (List.mem_append_right _ member)
    obtain rfl := Path.eq_of_intercalate plain some plain' some' same
    rw [here] at there
    cases there
    rfl
  rw [scan_eq_filter, SortedMap.values, List.mem_map]
  constructor
  · rintro ⟨⟨path, g⟩, member, rfl⟩
    obtain ⟨h, inner, same⟩ := List.mem_map.1 (SortedMap.mem_of_mem_ofList member)
    cases same
    obtain ⟨below, found⟩ := List.mem_filter.1 inner
    obtain ⟨some, here⟩ := FileTree.mem_filesBelow.1 below
    exact ⟨some, here, found⟩
  · rintro ⟨some, here, found⟩
    refine ⟨(f.relative, f), SortedMap.mem_entries_iff.2 ((SortedMap.get?_ofList_eq_some_iff once).2 ?_), rfl⟩
    exact List.mem_map.2 ⟨(f.names, f.bytes), List.mem_filter.2 ⟨FileTree.mem_filesBelow.2 ⟨some, here⟩, found⟩, rfl⟩

end ScanContext

/-! ## Without files with rules -/

/-- Where a folder may have files with rules, by the names from there on. -/
def RuleFile.files : List (List String) := [[".gitignore"], [".ignore"], [".git", "info", "exclude"]]

/-- A place has no file with rules in it or in a folder that it is in. -/
def FileTree.Unruled (t : FileTree) (r : Location) : Prop :=
  ∀ folder, folder <+: r ∨ r <+: folder → ∀ file ∈ RuleFile.files, ∀ bytes, t.get? (folder ++ file) ≠ some (.file bytes)

theorem RuleFile.eq_append_of_kindOf? {l folder : Location} {source : RuleSource}
    (drawn : kindOf? l.reverse = some (folder, source)) : ∃ file ∈ files, l = folder ++ file := by
  unfold kindOf? at drawn
  split at drawn
  · rename_i up reversed
    cases drawn
    exact ⟨[".ignore"], by decide, List.reverse_eq_cons_iff.1 reversed⟩
  · rename_i up reversed
    cases drawn
    exact ⟨[".gitignore"], by decide, List.reverse_eq_cons_iff.1 reversed⟩
  · rename_i up reversed
    cases drawn
    refine ⟨[".git", "info", "exclude"], by decide, ?_⟩
    rw [← List.reverse_reverse l, reversed]
    simp
  · cases drawn

theorem RuleFile.exists_of_mem_all {t : FileTree} {f : RuleFile} (member : f ∈ all t) :
    ∃ file ∈ files, ∃ bytes, t.get? (f.folder ++ file) = some (.file bytes) := by
  obtain ⟨⟨l, bytes⟩, listed, drawn⟩ := List.mem_filterMap.1 member
  obtain ⟨⟨folder, source⟩, kind, rfl⟩ := Option.map_eq_some_iff.1 drawn
  obtain ⟨file, known, rfl⟩ := eq_append_of_kindOf? kind
  exact ⟨file, known, bytes, (FileTree.mem_filesBelow.1 listed).2⟩

theorem FileTree.unruled_of_all {t : FileTree} (none : RuleFile.all t = []) (r : Location) : t.Unruled r := by
  intro folder _ file known bytes here
  obtain ⟨source, kind⟩ : ∃ source, RuleFile.kindOf? (folder ++ file).reverse = some (folder, source) := by
    simp only [RuleFile.files, List.mem_cons, List.not_mem_nil, or_false] at known
    obtain rfl | rfl | rfl := known
    · exact ⟨.repository, by simp [RuleFile.kindOf?]⟩
    · exact ⟨.plain, by simp [RuleFile.kindOf?]⟩
    · exact ⟨.exclusions, by simp [RuleFile.kindOf?]⟩
  have some : folder ++ file ≠ [] := by
    rintro top
    rw [top] at kind
    cases kind
  have member : ⟨folder, source, IgnoreRule.ofBytes bytes⟩ ∈ RuleFile.all t :=
    List.mem_filterMap.2 ⟨(folder ++ file, bytes), mem_filesBelow.2 ⟨some, here⟩,
      Option.map_eq_some_iff.2 ⟨(folder, source), kind, rfl⟩⟩
  rw [none] at member
  cases member

/-- Below such a place nothing is said about what is ignored. -/
theorem FileTree.Unruled.decide?_eq_none {t : FileTree} {r : Location} (unruled : t.Unruled r) (withRepository : Bool)
    (names : List String) (isFolder : Bool) :
    RuleFile.decide? (RuleFile.all t) withRepository (r ++ names) isFolder = none := by
  have silent : ∀ f ∈ RuleFile.all t, f.verdict? (r ++ names) isFolder = none := by
    intro f member
    rw [RuleFile.verdict?, if_neg]
    intro above
    rw [Bool.and_eq_true, List.isPrefixOf_iff_prefix] at above
    obtain ⟨file, known, bytes, here⟩ := RuleFile.exists_of_mem_all member
    exact unruled _ (List.prefix_or_prefix_of_prefix above.1 (List.prefix_append r names)) file known bytes here
  have nearest (source : RuleSource) : RuleFile.nearest? (RuleFile.all t) source (r ++ names) isFolder = none := by
    rw [RuleFile.nearest?, List.findSome?_eq_none_iff]
    intro f member
    exact silent f (List.mem_filter.1 ((List.mergeSort_perm _ _).mem_iff.1 member)).1
  rw [RuleFile.decide?, nearest, nearest, nearest]
  cases withRepository <;> rfl

namespace ScanContext

/-- What makes a file below the root, by its names from there on, a source file of the repository. -/
structure Passes (c : ScanContext) (names : List String) : Prop where
  source : c.isSource (String.intercalate "/" names) = true
  visible : ∀ name ∈ names, Text.startsWith name "." = false
  /-- The file is neither the manifest directory nor below it. -/
  outside : (FileTree.pathOf (c.root ++ names)).isUnder c.manifestDir = false
  kept : c.isExcluded (String.intercalate "/" names) false = false
  /-- No folder on the way is excluded. -/
  within : ∀ lead, lead <+: names → lead ≠ names → c.isExcluded (String.intercalate "/" lead) true = false

variable {c : ScanContext} {t : FileTree} {names : List String}

theorem admits_of_unruled (unruled : t.Unruled c.root) (isFolder : Bool) :
    c.admits (RuleFile.all t) names isFolder = true ↔
      (∀ name, names.getLast? = some name → Text.startsWith name "." = false) ∧
        (FileTree.pathOf (c.root ++ names)).isUnder c.manifestDir = false ∧
        c.isExcluded (String.intercalate "/" names) isFolder = false := by
  rw [admits, unruled.decide?_eq_none]
  simp [and_assoc, Option.any_eq_false]

theorem finds_of_unruled (unruled : t.Unruled c.root) (some : names ≠ [])
    (plain : ∀ s ∈ c.root ++ names, Path.IsName s) : c.finds (RuleFile.all t) names = true ↔ c.Passes names := by
  rw [finds, Bool.and_eq_true, leadsTo_iff]
  simp only [List.nil_append, admits_of_unruled unruled]
  constructor
  · rintro ⟨each, source⟩
    obtain ⟨-, outside, kept⟩ := each names some List.prefix_rfl
    rw [decide_eq_false (not_not_intro rfl)] at kept
    refine ⟨source, fun name member => ?_, outside, kept, fun lead leads other => ?_⟩
    · obtain ⟨before, after, rfl⟩ := List.append_of_mem member
      have leads : before ++ [name] <+: before ++ name :: after := ⟨after, by rw [← List.append_cons]⟩
      exact (each _ (FileTree.snoc_ne_nil before name) leads).1 name List.getLast?_concat
    · by_cases top : lead = []
      · rw [top]
        rfl
      · have excluded := (each lead top leads).2.2
        rwa [decide_eq_true other] at excluded
  · intro passes
    refine ⟨fun front _ leads => ⟨fun name last => ?_, ?_, ?_⟩, passes.source⟩
    · exact passes.visible name (leads.subset (List.mem_of_getLast? last))
    · -- below the manifest directory everything is below it
      refine Bool.eq_false_iff.2 fun under => ?_
      have plain' : ∀ s ∈ c.root ++ front, Path.IsName s := fun s member =>
        plain s ((List.prefix_append_right_inj c.root).2 leads |>.subset member)
      have outside := passes.outside
      rw [Bool.eq_false_iff, ne_eq, Path.isUnder_iff, Path.components_pathOf plain] at outside
      rw [Path.isUnder_iff, Path.components_pathOf plain'] at under
      refine outside (under.trans (List.cons_prefix_cons.2 ⟨rfl, ?_⟩))
      exact ((List.prefix_append_right_inj c.root).2 leads).map _
    · by_cases last : front = names
      · rw [last, decide_eq_false (not_not_intro rfl)]
        exact passes.kept
      · rw [decide_eq_true last]
        exact passes.within front leads last

/-- Without files with rules the scan is a filter of the files below the root: each file passes by its own path, and
what is scanned comes strictly sorted.  Nothing stops the walk. -/
theorem scan_of_unruled (valid : t.Valid) (root : t.get? c.root = some .folder) (unruled : t.Unruled c.root) :
    (c.scan t).Pairwise (fun f g => f.relative < g.relative) ∧
      (∀ f : SourceFile, f ∈ c.scan t ↔
        f.names ≠ [] ∧ t.get? (c.root ++ f.names) = some (.file f.bytes) ∧ c.Passes f.names) ∧
      c.scanIssues t = [] := by
  refine ⟨sorted_scan c t, fun f => ?_, ?_⟩
  · rw [mem_scan valid]
    refine and_congr_right fun some => and_congr_right fun here => ?_
    exact finds_of_unruled unruled some (valid.names _ _ here)
  · exact scanIssues_eq_nil root

/-- A repository where what is generated is excluded. -/
def sample : ScanContext where
  root := ["r"]
  manifestDir := ⟨"/r/.cartograph"⟩
  exclude := ["gen/**"]
  excluded := (Glob.parse false "gen/**").toOption.toList.map (⟨·, false⟩)
  extensions := ["ts"]
  respectGitignore := true
  staleAfterDays := 7
  strict := false
  imports := ⟨none, []⟩

/-- A tree with three files of one name, of which one is in a hidden folder and one is generated. -/
def sampleTree : FileTree where
  entries := .ofList [(["r"], .folder), (["r", "src"], .folder), (["r", "src", "a.ts"], .file []),
    (["r", ".old"], .folder), (["r", ".old", "a.ts"], .file []), (["r", "gen"], .folder),
    (["r", "gen", "a.ts"], .file [])]

theorem valid_sampleTree : sampleTree.Valid := FileTree.valid_of_entries (by decide +kernel)

theorem scan_of_unruled_sample :
    ⟨["src", "a.ts"], []⟩ ∈ sample.scan sampleTree ∧ ⟨[".old", "a.ts"], []⟩ ∉ sample.scan sampleTree ∧
      ⟨["gen", "a.ts"], []⟩ ∉ sample.scan sampleTree ∧ sample.scanIssues sampleTree = [] := by
  have none : RuleFile.all sampleTree = [] := List.isEmpty_iff.1 (by decide +kernel)
  obtain ⟨-, passes, free⟩ := scan_of_unruled valid_sampleTree (c := sample) (by decide +kernel)
    (FileTree.unruled_of_all none _)
  refine ⟨(passes _).2 ⟨by decide, by decide +kernel, ?_⟩, fun found => ?_, fun found => ?_, free⟩
  · have within : ∀ lead ∈ ["src", "a.ts"].inits, lead ≠ ["src", "a.ts"] →
        sample.isExcluded (String.intercalate "/" lead) true = false := by decide +kernel
    exact ⟨by decide +kernel, by decide +kernel, by decide +kernel, by decide +kernel, fun lead leads =>
      within lead ((List.mem_inits lead _).2 leads)⟩
  · exact absurd ((passes _).1 found).2.2.visible (by decide +kernel)
  · exact absurd ((passes _).1 found).2.2.kept (by decide +kernel)

end ScanContext

end Gazetteer
