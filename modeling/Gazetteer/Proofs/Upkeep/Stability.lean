import Gazetteer.Proofs.Project.Inputs
import Gazetteer.Proofs.Upkeep.Write

/-!
# Surveys and manifests

A survey does not see the files of the manifests: no file with rules, no file at the root that is read and no source
file that is found is one of them.  So trees that differ only in these, and in folders, yield the same content for
every kind (`FileTree.SameBut.content_eq`), and a run leaves such a tree (`Run.written_of_ok`).
-/

namespace Gazetteer

set_option autoImplicit false

/-- The trees have the same files, but for files that are named like those of a manifest in one folder. -/
def FileTree.SameBut (t t' : FileTree) (l : Location) : Prop :=
  ∀ m bytes, (∀ s ∈ Kind.allNames, m ≠ l ++ [s]) → (t'.get? m = some (.file bytes) ↔ t.get? m = some (.file bytes))

/-! ## Manifests are not found -/

namespace ScanContext

variable {c : ScanContext} {l : Location}

/-- Nothing in the directory of the manifests is found. -/
theorem finds_manifest (direct : c.manifestDir.Direct l) {s : String} (name : Path.IsName s) {rules : List RuleFile}
    {names : List String} (some : names ≠ []) (here : c.root ++ names = l ++ [s]) :
    c.finds rules names = false := by
  have each : ∀ s' ∈ l ++ [s], Path.IsName s' := by
    intro s' member
    obtain inner | last := List.mem_append.1 member
    · exact direct.names s' inner
    · rw [List.mem_singleton.1 last]
      exact name
  have under : (FileTree.pathOf (c.root ++ names)).isUnder c.manifestDir = true := by
    rw [here, Path.isUnder_iff, Path.components_pathOf each, direct, List.map_append, ← List.cons_append]
    exact List.prefix_append _ _
  refine Bool.eq_false_iff.2 fun found => ?_
  have admitted := (admits_of_finds some found).1
  rw [admits, under, Bool.not_true, Bool.and_false, Bool.false_and] at admitted
  cases admitted

end ScanContext

namespace FileTree

variable {c : ScanContext} {t t' : FileTree} {root : Path} {l r : Location}

/-- A file at the root that is not named like one of a manifest is the same. -/
theorem SameBut.at_root (same : t.SameBut t' l) {file : String} (apart : file ∉ Kind.allNames) :
    t.SameAt t' (r ++ [file]) := by
  refine fun bytes => same (r ++ [file]) bytes fun s listed both => ?_
  exact apart (List.singleton_inj.1 (List.append_inj' both rfl).2 ▸ listed)

/-- No manifest is a file with rules. -/
theorem SameBut.rules_eq (same : t.SameBut t' l) : RuleFile.all t' = RuleFile.all t := by
  refine RuleFile.all_eq fun m drawn bytes => same m bytes fun s listed here => ?_
  obtain ⟨⟨folder, source⟩, kind⟩ := Option.isSome_iff_exists.1 drawn
  obtain ⟨file, known, whole⟩ := RuleFile.eq_append_of_kindOf? kind
  have filled : ∀ file ∈ RuleFile.files, file ≠ [] := by decide
  have apart : ∀ s ∈ Kind.allNames, ∀ file ∈ RuleFile.files, file.getLast? ≠ some s := by decide
  refine apart s listed file known ?_
  rw [← List.getLast?_append_of_ne_nil folder (filled file known), ← whole, here, List.getLast?_concat]

theorem SameBut.scan_eq (same : t.SameBut t' l) (direct : c.manifestDir.Direct l) : c.scan t' = c.scan t := by
  have names : ∀ s ∈ Kind.allNames, Path.IsName s := by decide
  refine ScanContext.scan_eq same.rules_eq fun below some found bytes => ?_
  refine same (c.root ++ below) bytes fun s listed here => ?_
  rw [ScanContext.finds_manifest direct (names s listed) some here] at found
  cases found

/-- A survey yields the same content for every kind. -/
theorem SameBut.content_eq (same : t.SameBut t' l) (direct : c.manifestDir.Direct l)
    (here : t.FolderAt c.rootPath c.root) (here' : t'.FolderAt c.rootPath c.root) (k : Kind) :
    (Survey.take c t').content k = (Survey.take c t).content k := by
  have declares : ∀ file ∈ [Package.fileName, Declared.cargoFile], file ∉ Kind.allNames := by decide
  have locks : ∀ file ∈ Declared.lockfileManagers.map (·.1), file ∉ Kind.allNames := by decide
  have scan := same.scan_eq direct
  have declared := Declared.read_sameBut here here' fun file listed => same.at_root (declares file listed)
  by_cases tech : k = .techStack
  · rw [tech, Survey.techStack_eq_iff scan declared]
    exact declared.packageManager?_eq
      (Declared.lockfiles_eq here here' fun file listed => same.at_root (locks file listed))
  · exact Survey.content_eq scan declared tech

/-- A project is configured the same. -/
theorem SameBut.projectFile?_eq (same : t.SameBut t' l) (here : t.FolderAt root r) (here' : t'.FolderAt root r) :
    ScanContext.projectFile? t' root = ScanContext.projectFile? t root := by
  have apart : ∀ file ∈ ["tsconfig.json", "jsconfig.json"], file ∉ Kind.allNames := by decide
  exact ScanContext.projectFile?_eq here here' fun file listed => same.at_root (apart file listed)

end FileTree

/-! ## After a run -/

namespace Run

variable {c : ScanContext} {t : FileTree} {history : History} {now : Time.Instant} {kinds skipped : List Kind}
  {report : RefreshReport} {l : Location}

theorem sameBut_writeFiles (c : ScanContext) (t : FileTree) (analysis : Analysis) (now : Time.Instant)
    (found : List Found) (l : Location) :
    t.SameBut ((prepared c t).writeFiles l (files c analysis now found)) l := by
  intro m bytes apart
  rw [FileTree.get?_writeFiles_of_not_mem, sameFiles_prepared c t m bytes]
  intro f member
  obtain ⟨⟨k, prior⟩, -, inner⟩ := List.mem_flatMap.1 member
  exact apart f.1 (Kind.mem_allNames (mem_names_of_mem_planned inner))

/-- A tree whose locations are sound, with the root of the repository in it. -/
structure Housed (c : ScanContext) (t : FileTree) : Prop where
  valid : t.Valid
  root : t.get? c.root = some .folder

theorem Housed.folderAt (housed : Housed c t) : t.FolderAt c.rootPath c.root :=
  housed.valid.folderAt (Path.direct_pathOf (housed.valid.names _ _ housed.root)) housed.root

theorem direct_sample : sampleContext.manifestDir.Direct ["r", ".cartograph"] := by
  unfold Path.Direct
  decide

theorem housed_filled : Housed sampleContext filledTree :=
  ⟨FileTree.valid_of_entries (by decide +kernel), by decide +kernel⟩

/-- What holds after a run that has written manifests: the survey yields what it did, and every kind that was to be
written is loaded in its next version. -/
structure Written (c : ScanContext) (t : FileTree) (history : History) (now : Time.Instant) (kinds skipped : List Kind)
    (t' : FileTree) (report : RefreshReport) : Prop where
  housed : Housed c t'
  content : ∀ k, (Survey.take c t').content k = (Survey.take c t).content k
  project : ScanContext.projectFile? t' c.rootPath = ScanContext.projectFile? t c.rootPath
  settled : ∃ settled, report = reportOf (Analysis.make c t history ((store c).loadAll t kinds)) skipped settled ∧
    List.Forall₂ (fun k s => ∃ fresh, Settles c (prepared c t) (Analysis.make c t history ((store c).loadAll t kinds)) now
      (k, (store c).load t k) fresh s ∧ (store c).load t' k = .loaded
        (stored c (Analysis.make c t history ((store c).loadAll t kinds)) now (k, (store c).load t k) fresh))
      kinds settled

theorem written_of_ok (housed : Housed c t) (direct : c.manifestDir.Direct l) (range : now.inRange = true)
    (filled : kinds ≠ []) (done : (write c t history now ((store c).loadAll t kinds) skipped).result = .ok report) :
    Written c t history now kinds skipped (write c t history now ((store c).loadAll t kinds) skipped).tree report := by
  have filled : (store c).loadAll t kinds ≠ [] := loadAll_ne_nil filled
  obtain ⟨settled, l', ready, here, free, tree, rfl⟩ := ready_of_ok filled done
  obtain rfl : l' = l := FileTree.location_of_direct direct here
  have same := sameBut_writeFiles c t (Analysis.make c t history ((store c).loadAll t kinds)) now
    ((store c).loadAll t kinds) l'
  have keeps := (Store.grows_prepare (store c) t).keeps.trans (FileTree.keeps_writeFiles free)
  rw [tree]
  refine ⟨⟨?_, keeps.folder _ housed.root⟩, ?_, ?_, settled, rfl, ?_⟩
  · exact FileTree.valid_writeFiles (Store.valid_prepare housed.valid) here.folder isName_of_mem_files free
  · exact same.content_eq direct housed.folderAt (housed.folderAt.of_keeps keeps)
  · exact same.projectFile?_eq housed.folderAt (housed.folderAt.of_keeps keeps)
  · have each := settles_each ready.each
    refine (List.forall₂_and_left (p := (· ∈ kinds)) kinds settled).2 ⟨fun _ => id, each⟩ |>.imp ?_
    rintro k s ⟨listed, fresh, settles⟩
    exact ⟨fresh, settles, load_written here free settles listed range⟩

theorem written_of_refresh (housed : Housed c t) (direct : c.manifestDir.Direct l) (range : now.inRange = true)
    (filled : kinds ≠ []) (done : (refresh c t history now kinds).result = .ok report) :
    Written c t history now kinds [] (refresh c t history now kinds).tree report :=
  written_of_ok housed direct range filled done

end Run

end Gazetteer
