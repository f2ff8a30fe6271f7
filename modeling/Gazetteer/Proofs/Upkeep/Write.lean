import Gazetteer.Proofs.Upkeep.Settle

/-!
# What a run writes

A run that finds all manifests settled writes their files one after the other, up to the first whose place a folder
takes, and fails if there is one (`Run.write_of_ready`); any other run that has something to write fails and leaves
the tree with its directory (`Run.write_of_stuck`).  What a run has written is loaded again (`Run.load_written`).
-/

namespace Gazetteer

set_option autoImplicit false

namespace Run

variable {c : ScanContext} {t : FileTree} {history : History} {now : Time.Instant} {found : List Found}
  {skipped kinds : List Kind} {analysis : Analysis} {settled : List Settled} {l : Location}

/-! ## The files of a run -/

/-- The files that are written for what is found, by their names in the directory and in their order. -/
def files (c : ScanContext) (analysis : Analysis) (now : Time.Instant) (found : List Found) :
    List (String × List UInt8) :=
  found.flatMap (planned c analysis now)

theorem isName_of_mem_files : ∀ f ∈ files c analysis now found, Path.IsName f.1 := by
  intro f member
  obtain ⟨⟨k, prior⟩, -, inner⟩ := List.mem_flatMap.1 member
  exact Kind.isName_of_mem_names (mem_names_of_mem_planned inner)

theorem eq_of_mem_planned {found : Found} {f g : String × List UInt8} (member : f ∈ planned c analysis now found)
    (member' : g ∈ planned c analysis now found) (same : f.1 = g.1) : f.2 = g.2 := by
  have nodup : ((planned c analysis now found).map (·.1)).Nodup := found.1.nodup_names.sublist names_planned
  rw [List.inj_on_of_nodup_map nodup member member' same]

/-- Files of one name hold the same, as a kind is found only once. -/
theorem agree_files {s : Store} {f g : String × List UInt8} (member : f ∈ files c analysis now (s.loadAll t kinds))
    (member' : g ∈ files c analysis now (s.loadAll t kinds)) (same : f.1 = g.1) : f.2 = g.2 := by
  obtain ⟨a, listed, inner⟩ := List.mem_flatMap.1 member
  obtain ⟨b, listed', inner'⟩ := List.mem_flatMap.1 member'
  obtain ⟨k, -, rfl⟩ := List.mem_map.1 listed
  obtain ⟨k', -, rfl⟩ := List.mem_map.1 listed'
  have kind : k = k' := by
    refine Kind.eq_of_mem_names (mem_names_of_mem_planned inner) ?_
    rw [same]
    exact mem_names_of_mem_planned inner'
  subst kind
  exact eq_of_mem_planned inner inner' same

/-- So do the files that are written up to some place. -/
theorem agree_of_lead {s : Store} {written : List (String × List UInt8)}
    (lead : written <+: files c analysis now (s.loadAll t kinds)) :
    ∀ f ∈ written, ∀ g ∈ written, f.1 = g.1 → f.2 = g.2 := fun _ member _ member' =>
  agree_files (lead.subset member) (lead.subset member')

/-! ## A whole run -/

/-- The tree in which a run writes. -/
def prepared (c : ScanContext) (t : FileTree) : FileTree := ((store c).prepare t).1

theorem sameFiles_prepared (c : ScanContext) (t : FileTree) : t.SameFiles (prepared c t) :=
  (Store.grows_prepare (store c) t).sameFiles

theorem prepared_of_folderAt (here : t.FolderAt c.manifestDir l) : prepared c t = t :=
  congrArg Prod.fst (Store.prepare_of_folderAt (s := store c) here)

theorem loadAll_ne_nil {s : Store} (filled : kinds ≠ []) : s.loadAll t kinds ≠ [] := by
  rw [Store.loadAll, ne_eq, List.map_eq_nil_iff]
  exact filled

/-- The directory is in place and every manifest is settled. -/
structure Ready (c : ScanContext) (t : FileTree) (history : History) (now : Time.Instant) (found : List Found)
    (settled : List Settled) : Prop where
  directory : ((store c).prepare t).2 = .ok ()
  each : List.Forall₂ (fun f s => settle c (prepared c t) (Analysis.make c t history found) now f = .ok s) found settled

theorem files_of_each {tree : FileTree}
    (each : List.Forall₂ (fun f s => settle c tree analysis now f = .ok s) found settled) :
    (settled.map (·.staged)).flatMap (·.files) =
      (files c analysis now found).map fun f => (c.manifestDir.join f.1, f.2) := by
  induction each with
  | nil => rfl
  | cons head _ ih =>
    obtain ⟨fresh, settles⟩ := settle_eq_ok head
    rw [List.map_cons, List.flatMap_cons, ih, settles.files]
    exact List.map_append.symm

theorem settles_each {tree : FileTree} {s : Store}
    (each : List.Forall₂ (fun f s => settle c tree analysis now f = .ok s) (s.loadAll t kinds) settled) :
    List.Forall₂ (fun k settled => ∃ fresh, Settles c tree analysis now (k, s.load t k) fresh settled) kinds
      settled := by
  rw [Store.loadAll, List.forall₂_map_left_iff] at each
  exact each.imp fun _ _ done => settle_eq_ok done

theorem Ready.folderAt (filled : found ≠ []) (ready : Ready c t history now found settled) :
    ∃ l, (prepared c t).FolderAt c.manifestDir l := by
  cases ready.each with
  | nil => exact absurd rfl filled
  | cons head _ =>
    obtain ⟨fresh, settles⟩ := settle_eq_ok head
    exact FileTree.folderAt_of_find settles.folder

/-- The report of a run that has written everything. -/
def reportOf (analysis : Analysis) (skipped : List Kind) (settled : List Settled) : RefreshReport where
  updated := settled.map (·.update)
  skipped := skipped
  files := analysis.survey.files.length
  symbols := analysis.survey.symbolCount
  issues := surveyIssues analysis.survey ++ settled.flatMap (·.issues)

/-- There is one update for each kind. -/
theorem updated_kinds {tree : FileTree} {s : Store} (skipped : List Kind)
    (each : List.Forall₂ (fun k settled => ∃ fresh, Settles c tree analysis now (k, s.load t k) fresh settled) kinds
      settled) : (reportOf analysis skipped settled).updated.map (·.kind) = kinds := by
  refine Eq.trans List.map_map (Outcome.map_of_each each fun k s done => ?_)
  obtain ⟨fresh, settles⟩ := done
  exact congrArg Update.kind settles.update

theorem write_eq (filled : found ≠ []) :
    write c t history now found skipped =
      match persist c t (Analysis.make c t history found) now found with
      | (t', .error e) => ⟨t', .failed, (Analysis.make c t history found).asked, .error e⟩
      | (t', .ok settled) =>
          ⟨t', .persisted, (Analysis.make c t history found).asked,
            .ok (reportOf (Analysis.make c t history found) skipped settled)⟩ := by
  have some : found.isEmpty = false := List.isEmpty_eq_false_iff.2 filled
  rw [write, some, if_neg Bool.false_ne_true]
  rfl

/-- A run that is ready writes its files, up to the first that cannot be. -/
theorem write_of_ready (skipped : List Kind) (filled : found ≠ []) (ready : Ready c t history now found settled)
    (here : (prepared c t).FolderAt c.manifestDir l) :
    (write c t history now found skipped).tree =
        (prepared c t).writeFiles l ((prepared c t).unblocked l (files c (Analysis.make c t history found) now found)) ∧
      (write c t history now found skipped).result =
        if (prepared c t).Free l (files c (Analysis.make c t history found) now found) then
          .ok (reportOf (Analysis.make c t history found) skipped settled)
        else .error (.persist (.io FileError.isFolder.message)) := by
  have place : (store c).prepare t = (prepared c t, .ok ()) := Prod.ext rfl ready.directory
  have names : ∀ f ∈ files c (Analysis.make c t history found) now found, Path.IsName f.1 := isName_of_mem_files
  have commit := Store.writeAll_join here names
  rw [← files_of_each ready.each] at commit
  rw [write_eq filled, persist, place]
  dsimp only
  rw [Outcome.mapM_eq_ok.2 ready.each]
  dsimp only
  rw [Store.commit, commit]
  by_cases free : (prepared c t).Free l (files c (Analysis.make c t history found) now found)
  · rw [if_pos free, if_pos free]
    exact ⟨rfl, rfl⟩
  · rw [if_neg free, if_neg free]
    exact ⟨rfl, rfl⟩

/-- A run with something to write that does not get ready fails, and at most makes folders. -/
theorem write_of_stuck (skipped : List Kind) (filled : found ≠ [])
    (stuck : ∀ settled, ¬Ready c t history now found settled) :
    (write c t history now found skipped).tree = prepared c t ∧
      ∃ e, (write c t history now found skipped).result = .error e := by
  rw [write_eq filled, persist]
  cases place : (store c).prepare t with
  | mk tree outcome =>
    have same : tree = prepared c t := by rw [prepared, place]
    cases outcome with
    | error e => exact ⟨same, _, rfl⟩
    | ok _ =>
      dsimp only
      cases all : found.mapM (settle c tree (Analysis.make c t history found) now) with
      | error e => exact ⟨same, _, rfl⟩
      | ok settled =>
        refine absurd ?_ (stuck settled)
        exact ⟨by rw [place], by rw [← same]; exact Outcome.mapM_eq_ok.1 all⟩

/-- A run that succeeds has found everything ready and no folder in its way. -/
theorem ready_of_ok {report : RefreshReport} (filled : found ≠ [])
    (done : (write c t history now found skipped).result = .ok report) :
    ∃ settled l, Ready c t history now found settled ∧ (prepared c t).FolderAt c.manifestDir l ∧
      (prepared c t).Free l (files c (Analysis.make c t history found) now found) ∧
      (write c t history now found skipped).tree =
        (prepared c t).writeFiles l (files c (Analysis.make c t history found) now found) ∧
      report = reportOf (Analysis.make c t history found) skipped settled := by
  by_cases ready : ∃ settled, Ready c t history now found settled
  · obtain ⟨settled, ready⟩ := ready
    obtain ⟨l, here⟩ := ready.folderAt filled
    obtain ⟨tree, result⟩ := write_of_ready skipped filled ready here
    rw [result] at done
    split at done
    · rename_i free
      cases done
      rw [FileTree.unblocked_of_free free] at tree
      exact ⟨settled, l, ready, here, free, tree, rfl⟩
    · cases done
  · obtain ⟨-, e, failed⟩ := write_of_stuck skipped filled (not_exists.1 ready)
    rw [failed] at done
    cases done

/-- All that a run does to a tree: it makes folders, or it writes its files up to some place in their order as well. -/
theorem write_tree (c : ScanContext) (t : FileTree) (history : History) (now : Time.Instant) (found : List Found)
    (skipped : List Kind) :
    t.Grows (write c t history now found skipped).tree ∨
      ∃ l written, (prepared c t).FolderAt c.manifestDir l ∧ (prepared c t).Free l written ∧
        written <+: files c (Analysis.make c t history found) now found ∧
        (write c t history now found skipped).tree = (prepared c t).writeFiles l written := by
  obtain rfl | filled : found = [] ∨ found ≠ [] := Classical.em _
  · exact .inl (.refl t)
  · by_cases ready : ∃ settled, Ready c t history now found settled
    · obtain ⟨settled, ready⟩ := ready
      obtain ⟨l, here⟩ := ready.folderAt filled
      exact .inr ⟨l, _, here, FileTree.free_unblocked _ l _, FileTree.unblocked_prefix _ l _,
        (write_of_ready skipped filled ready here).1⟩
    · obtain ⟨tree, -⟩ := write_of_stuck skipped filled (not_exists.1 ready)
      rw [tree]
      exact .inl (Store.grows_prepare (store c) t)

/-! ## What is written is loaded again -/

section Loaded

variable {k : Kind} {fresh : AutoRegion} {s : Settled}

/-- What follows a document that was loaded is sound. -/
theorem sound_next (settles : Settles c (prepared c t) analysis now (k, (store c).load t k) fresh s)
    (range : now.inRange = true) : (next c analysis now (k, (store c).load t k) fresh).document.Sound := by
  have kept : ∀ d, (store c).load t k = .loaded d → d.manual.Kept := fun d found => Document.kept_of_load found
  rw [next]
  dsimp only
  exact sound_merge kept range settles.plain

/-- The manifest of a kind that is settled is among the files. -/
theorem manifest_mem_files {tree : FileTree} (settles : Settles c tree analysis now (k, (store c).load t k) fresh s)
    (listed : k ∈ kinds) :
    (k.fileName, Text.Utf8.encode (next c analysis now (k, (store c).load t k) fresh).document.text) ∈
      files c analysis now ((store c).loadAll t kinds) := by
  obtain ⟨markdown, plan⟩ := settles.markdown
  refine List.mem_flatMap.2 ⟨(k, (store c).load t k), List.mem_map_of_mem listed, ?_⟩
  rw [plan]
  exact Store.mem_filesOf k _ markdown _

/-- The manifest of a kind that was written holds the text of the next version. -/
theorem get?_written (settles : Settles c (prepared c t) analysis now (k, (store c).load t k) fresh s)
    (listed : k ∈ kinds) :
    ((prepared c t).writeFiles l (files c analysis now ((store c).loadAll t kinds))).get? (l ++ [k.fileName]) =
      some (.file (Text.Utf8.encode (next c analysis now (k, (store c).load t k) fresh).document.text)) :=
  FileTree.get?_writeFiles_of_mem (agree_of_lead List.prefix_rfl) (manifest_mem_files settles listed)

/-- No file is named like the manifest of another kind. -/
theorem ne_of_mem_files (absent : k ∉ kinds) (l l' : Location) :
    ∀ f ∈ files c analysis now ((store c).loadAll t kinds), l ++ [k.fileName] ≠ l' ++ [f.1] := by
  intro f member same
  obtain ⟨a, listed, inner⟩ := List.mem_flatMap.1 member
  obtain ⟨k', chosen, rfl⟩ := List.mem_map.1 listed
  have own : f.1 ∈ k.names := by
    rw [← List.singleton_inj.1 (List.append_inj' same rfl).2]
    exact k.fileName_mem_names
  have kind : k = k' := Kind.eq_of_mem_names own (mem_names_of_mem_planned inner)
  rw [kind] at absent
  exact absent chosen

/-- The manifest of a kind that was written is the next version of what was found. -/
theorem load_written (here : (prepared c t).FolderAt c.manifestDir l)
    (free : (prepared c t).Free l (files c analysis now ((store c).loadAll t kinds)))
    (settles : Settles c (prepared c t) analysis now (k, (store c).load t k) fresh s) (listed : k ∈ kinds)
    (range : now.inRange = true) :
    (store c).load ((prepared c t).writeFiles l (files c analysis now ((store c).loadAll t kinds))) k =
      .loaded (stored c analysis now (k, (store c).load t k) fresh) := by
  rw [Store.load_eq (here.of_keeps (FileTree.keeps_writeFiles free)), get?_written settles listed]
  exact Document.priorOf_encode_text (sound_next settles range)

/-- The manifest of another kind is the one that was there. -/
theorem load_unwritten (here : (prepared c t).FolderAt c.manifestDir l)
    (free : (prepared c t).Free l (files c analysis now ((store c).loadAll t kinds))) (absent : k ∉ kinds) :
    (store c).load ((prepared c t).writeFiles l (files c analysis now ((store c).loadAll t kinds))) k =
      (store c).load (prepared c t) k := by
  rw [Store.load_eq (here.of_keeps (FileTree.keeps_writeFiles free)), Store.load_eq here,
    FileTree.get?_writeFiles_of_not_mem (ne_of_mem_files absent l l)]

end Loaded

/-! ## Creating -/

/-- The kinds of which there is no manifest. -/
def absent (c : ScanContext) (t : FileTree) : List Kind := Kind.all.filter fun k => !((store c).load t k).isPresent

/-- The kinds of which something is found. -/
def present (c : ScanContext) (t : FileTree) : List Kind := Kind.all.filter fun k => ((store c).load t k).isPresent

theorem partition_map {α β : Type} (f : α → β) (p : β → Bool) (xs : List α) :
    (xs.map fun a => (a, f a)).partition (fun e => p e.2) =
      ((xs.filter fun a => p (f a)).map fun a => (a, f a), (xs.filter fun a => !p (f a)).map fun a => (a, f a)) := by
  rw [List.partition_eq_filter_filter, List.filter_map, List.filter_map]
  rfl

/-- Creating is writing the kinds that are absent. -/
theorem create_eq (c : ScanContext) (t : FileTree) (history : History) (now : Time.Instant) :
    create c t history now = write c t history now ((store c).loadAll t (absent c t)) (present c t) := by
  have split : ((store c).loadAll t Kind.all).partition (fun f => f.2.isPresent) =
      ((store c).loadAll t (present c t), (store c).loadAll t (absent c t)) :=
    partition_map ((store c).load t) Prior.isPresent Kind.all
  have kinds : ((store c).loadAll t (present c t)).map (fun f => f.1) = present c t := by
    rw [Store.loadAll, List.map_map]
    exact List.map_id _
  rw [create, split]
  dsimp only
  rw [kinds]

/-! ## A small repository -/

/-- A repository that is one folder, with its manifests in the usual place. -/
def sampleContext : ScanContext where
  root := ["r"]
  manifestDir := ⟨"/r/.cartograph"⟩
  exclude := []
  excluded := []
  extensions := ["ts"]
  respectGitignore := true
  staleAfterDays := 7
  strict := false
  imports := ⟨none, []⟩

/-- The repository without any files. -/
def sampleTree : FileTree := (({} : FileTree).put ["r"] .folder).put ["r", ".cartograph"] .folder

/-- The repository with a package and a source file, a manifest that holds a note and one that cannot be read. -/
def filledTree : FileTree :=
  ((((sampleTree.put ["r", "package.json"] (.file (Text.Utf8.encode
    "\x7b\"name\":\"sample\",\"dependencies\":\x7b\"react\":\"18.2.0\"\x7d\x7d"))).put ["r", "src"] .folder).put
    ["r", "src", "a.ts"] (.file (Text.Utf8.encode "export function a() \x7b\x7d\n"))).put
    ["r", ".cartograph", "tech-stack.json"] (.file (Text.Utf8.encode
      ("\x7b\"_metadata\":\x7b\"lastUpdated\":\"2026-01-01T00:00:00Z\",\"version\":4,\"changesSinceLastUpdate\":0," ++
        "\"autoGenerated\":true\x7d,\"notes\":\"React until the rewrite.\"\x7d")))).put
    ["r", ".cartograph", "symbols.json"] (.file [0x21])

end Run

end Gazetteer
