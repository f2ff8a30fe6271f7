import Gazetteer.Project.Survey
import Gazetteer.Proofs.Project.Walk

/-!
# What a survey reads

A survey reads the files with rules of what is ignored, the source files that it finds, and a few files at the root.
Trees that are the same there yield the same source files (`ScanContext.scan_eq`), the same declared dependencies
(`Declared.read_sameBut`) and the same configuration of the project (`ScanContext.projectFile?_eq`).
-/

namespace Gazetteer

set_option autoImplicit false

namespace FileTree

/-- A location holds the same file in both trees, or in neither a file. -/
def SameAt (t t' : FileTree) (l : Location) : Prop :=
  ∀ bytes, t'.get? l = some (.file bytes) ↔ t.get? l = some (.file bytes)

variable {t t' : FileTree} {r : Location}

theorem sameAt_put {l m : Location} {e : Entry} (ne : m ≠ l) : t.SameAt (t.put l e) m := by
  intro bytes
  rw [get?_put_of_ne ne]

/-- What is drawn from the files below a folder does not depend on those nothing is drawn from. -/
theorem filterMap_filesBelow {β : Type} {g : List String × List UInt8 → Option β}
    (same : ∀ names bytes, names ≠ [] → (g (names, bytes)).isSome = true → t.SameAt t' (r ++ names)) :
    (t'.filesBelow r).filterMap g = (t.filesBelow r).filterMap g := by
  have each {tree : FileTree} {names : List String} {bytes : List UInt8} :
      SortedMap.get? ⟨tree.filesBelow r, sorted_filesBelow tree r⟩ names = some bytes ↔
        names ≠ [] ∧ tree.get? (r ++ names) = some (.file bytes) :=
    SortedMap.mem_entries_iff.symm.trans mem_filesBelow
  refine SortedMap.filterMap_congr (m := ⟨t'.filesBelow r, sorted_filesBelow t' r⟩)
    (n := ⟨t.filesBelow r, sorted_filesBelow t r⟩) fun names bytes drawn => ?_
  rw [each, each]
  exact and_congr_right fun some => same names bytes some drawn bytes

/-! ## Files at the root -/

section Root

variable {root : Path} {file : String}

theorem readText_join (name : Path.IsName file) (here : t.FolderAt root r) {text : String} :
    t.readText (root.join file) = .ok text ↔
      ∃ bytes, t.get? (r ++ [file]) = some (.file bytes) ∧ Text.Utf8.decode bytes = .ok text := by
  rw [readText, read_join name here]
  cases t.get? (r ++ [file]) with
  | none => exact ⟨nofun, nofun⟩
  | some e =>
    cases e with
    | folder => exact ⟨nofun, nofun⟩
    | file bytes =>
      rw [Outcome.ok_bind]
      constructor
      · intro done
        split at done
        · rename_i decoded
          cases done
          exact ⟨bytes, rfl, decoded⟩
        · cases done
      · rintro ⟨bytes', same, decoded⟩
        cases same
        rw [decoded]
        rfl

/-- A file that is the same reads the same. -/
theorem readText_eq (name : Path.IsName file) (here : t.FolderAt root r) (here' : t'.FolderAt root r)
    (same : t.SameAt t' (r ++ [file])) :
    (t'.readText (root.join file)).toOption = (t.readText (root.join file)).toOption := by
  have each (text : String) : t'.readText (root.join file) = .ok text ↔ t.readText (root.join file) = .ok text := by
    rw [readText_join name here, readText_join name here']
    exact exists_congr fun bytes => and_congr_left fun _ => same bytes
  apply Option.ext
  intro text
  rw [Outcome.toOption_eq_some, Outcome.toOption_eq_some]
  exact each text

theorem isFile_eq (name : Path.IsName file) (here : t.FolderAt root r) (here' : t'.FolderAt root r)
    (same : t.SameAt t' (r ++ [file])) : t'.isFile (root.join file) = t.isFile (root.join file) := by
  have told {tree : FileTree} (there : tree.FolderAt root r) :
      tree.isFile (root.join file) = true ↔ ∃ bytes, tree.get? (r ++ [file]) = some (.file bytes) := by
    rw [isFile, find_join name there]
    cases tree.get? (r ++ [file]) with
    | none => simp
    | some e => cases e <;> simp
  rw [Bool.eq_iff_iff, told here, told here']
  exact exists_congr same

end Root

end FileTree

variable {c : ScanContext} {t t' : FileTree} {root : Path} {r : Location}

/-! ## Source files -/

theorem RuleFile.all_eq (same : ∀ l, (kindOf? l.reverse).isSome = true → t.SameAt t' l) : all t' = all t := by
  rw [all, all]
  refine FileTree.filterMap_filesBelow fun names bytes _ drawn => ?_
  rw [Option.isSome_map] at drawn
  exact same names drawn

namespace ScanContext

theorem scan_eq (rules : RuleFile.all t' = RuleFile.all t)
    (same : ∀ names, names ≠ [] → c.finds (RuleFile.all t) names = true → t.SameAt t' (c.root ++ names)) :
    c.scan t' = c.scan t := by
  have found : (t'.filesBelow c.root).filter (fun f => c.finds (RuleFile.all t) f.1) =
      (t.filesBelow c.root).filter fun f => c.finds (RuleFile.all t) f.1 := by
    rw [← List.filterMap_eq_filter]
    refine FileTree.filterMap_filesBelow fun names bytes some drawn => same names some ?_
    rw [Option.isSome_guard] at drawn
    exact drawn
  rw [scan_eq_filter, scan_eq_filter, rules, found]

end ScanContext

/-! ## Declared dependencies and configuration -/

namespace Declared

/-- Two declarations are the same but for lock files and for what is found wrong. -/
def SameBut (d d' : Declared) : Prop := { d' with lockfiles := d.lockfiles, complaints := d.complaints } = d

theorem readWith_fst {α : Type} (t : FileTree) (root : Path) (file : String) (parse : String → Except String α) :
    (readWith t root file parse).1 =
      (t.readText (root.join file)).toOption.bind fun text => (parse text).toOption := by
  delta readWith
  cases t.readText (root.join file) with
  | error e => cases e <;> rfl
  | ok text =>
    rw [Except.toOption, Option.bind_some]
    dsimp only
    cases parse text <;> rfl

/-- What is declared at a root depends on two files, but for lock files and for what is found wrong. -/
theorem read_sameBut (here : t.FolderAt root r) (here' : t'.FolderAt root r)
    (same : ∀ file ∈ [Package.fileName, cargoFile], t.SameAt t' (r ++ [file])) :
    (read t root).SameBut (read t' root) := by
  have plain : ∀ file ∈ [Package.fileName, cargoFile], Path.IsName file := by decide
  have whole (file : String) (listed : file ∈ [Package.fileName, cargoFile]) {α : Type}
      (parse : String → Except String α) : (readWith t' root file parse).1 = (readWith t root file parse).1 := by
    rw [readWith_fst, readWith_fst, FileTree.readText_eq (plain file listed) here here' (same file listed)]
  have package := whole Package.fileName (by decide) Package.parse
  have cargo := whole cargoFile (by decide) fun text => (Toml.parse text).mapError Toml.Place.fault
  rw [SameBut, read, read]
  dsimp only
  rw [package, cargo]

theorem lockfiles_eq (here : t.FolderAt root r) (here' : t'.FolderAt root r)
    (same : ∀ file ∈ lockfileManagers.map (·.1), t.SameAt t' (r ++ [file])) :
    (read t' root).lockfiles = (read t root).lockfiles := by
  have plain : ∀ file ∈ lockfileManagers.map (·.1), Path.IsName file := by decide
  exact List.filter_congr fun file listed =>
    FileTree.isFile_eq (plain file listed) here here' (same file listed)

end Declared

/-- A project is configured the same. -/
theorem ScanContext.projectFile?_eq (here : t.FolderAt root r) (here' : t'.FolderAt root r)
    (same : ∀ file ∈ ["tsconfig.json", "jsconfig.json"], t.SameAt t' (r ++ [file])) :
    projectFile? t' root = projectFile? t root := by
  have first := FileTree.readText_eq (by decide) here here' (same "tsconfig.json" (by decide))
  have second := FileTree.readText_eq (by decide) here here' (same "jsconfig.json" (by decide))
  simp only [projectFile?, List.findSome?_cons, List.findSome?_nil, first, second]

/-! ## Content -/

namespace Declared

variable {d d' : Declared} {files : List String}

/-- Lock files tell nothing but the package manager. -/
theorem SameBut.techStack_eq_iff (same : d.SameBut d') :
    d'.techStack files = d.techStack files ↔ d'.packageManager? = d.packageManager? := by
  refine ⟨congrArg TechStack.packageManager, fun manager => ?_⟩
  calc d'.techStack files
      = { ({ d' with lockfiles := d.lockfiles, complaints := d.complaints } : Declared).techStack files with
          packageManager := d'.packageManager? } := rfl
    _ = { d.techStack files with packageManager := d'.packageManager? } := by rw [same]
    _ = d.techStack files := by rw [manager]; rfl

theorem SameBut.packageManager?_eq (same : d.SameBut d') (locks : d'.lockfiles = d.lockfiles) :
    d'.packageManager? = d.packageManager? := by
  calc d'.packageManager?
      = ({ d' with lockfiles := d'.lockfiles, complaints := d.complaints } : Declared).packageManager? := rfl
    _ = d.packageManager? := by rw [locks, same]

end Declared

namespace Survey

variable {files : List String} {extracts : Extracts} {d d' : Declared} {issues issues' : List ScanIssue} {k : Kind}

/-- What is found wrong with the files at the root or on the way to sources is no part of any content, and lock files
are of one only. -/
theorem content_of_sameBut (same : d.SameBut d') (other : k ≠ .techStack) :
    content ⟨files, extracts, d', issues'⟩ k = content ⟨files, extracts, d, issues⟩ k := by
  rw [← same]
  cases k with
  | techStack => exact absurd rfl other
  | symbols | exports | imports | patterns | apiSurface => rfl

theorem content_eq (scan : c.scan t' = c.scan t)
    (declared : (Declared.read t c.rootPath).SameBut (Declared.read t' c.rootPath)) (other : k ≠ .techStack) :
    (take c t').content k = (take c t).content k := by
  rw [take, take, ofFiles, ofFiles, scan]
  exact content_of_sameBut declared other

theorem techStack_eq_iff (scan : c.scan t' = c.scan t)
    (declared : (Declared.read t c.rootPath).SameBut (Declared.read t' c.rootPath)) :
    (take c t').content .techStack = (take c t).content .techStack ↔
      (Declared.read t' c.rootPath).packageManager? = (Declared.read t c.rootPath).packageManager? := by
  rw [take, take, ofFiles, ofFiles, scan]
  exact (Content.techStack.injEq _ _).to_iff.trans declared.techStack_eq_iff

end Survey

end Gazetteer
