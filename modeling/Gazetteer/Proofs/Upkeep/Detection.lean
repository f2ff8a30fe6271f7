import Gazetteer.Proofs.Project.Inputs
import Gazetteer.Proofs.Registry.Fresh
import Gazetteer.Proofs.Upkeep.Write

/-!
# Changes that are not counted

Change detection counts changes to source files and to the two files of declared dependencies.  Of trees that differ
only in what it does not count, manifests follow the same, but for two inputs that it leaves out: the files with rules
of what is ignored, and the lock files, which tell the package manager (`Run.region_of_undetected`).
-/

namespace Gazetteer

set_option autoImplicit false

variable {c : ScanContext} {t t' : FileTree} {log : ChangeLog} {last : Time.Instant}

/-- A path that changed and that manifests depend on is counted. -/
theorem concerns_of_undetected {path : String} (undetected : (relevantChanges c log last).size = 0)
    (changed : (log.since last).paths.contains path = true) : c.concerns path = false := by
  have none : (relevantChanges c log last).paths.get? path = none := by
    rw [SortedMap.get?, List.eq_nil_of_length_eq_zero undetected]
    rfl
  obtain ⟨change, held⟩ := Option.isSome_iff_exists.1 changed
  rw [relevantChanges, ChangeSet.keep, SortedMap.get?_filter, held] at none
  cases concerned : c.concerns path with
  | false => rfl
  | true =>
    rw [Option.filter_some, concerned] at none
    cases none

/-- Every path below the root on which two trees differ has changed in the history after a time. -/
def Recorded (c : ScanContext) (t t' : FileTree) (log : ChangeLog) (last : Time.Instant) : Prop :=
  ∀ names, ¬t.SameAt t' (c.root ++ names) → (log.since last).paths.contains (String.intercalate "/" names) = true

theorem Recorded.sameAt (recorded : Recorded c t t' log last) (undetected : (relevantChanges c log last).size = 0)
    {names : List String} (concerns : c.concerns (String.intercalate "/" names) = true) :
    t.SameAt t' (c.root ++ names) := by
  by_contra differ
  rw [concerns_of_undetected undetected (recorded names differ)] at concerns
  cases concerns

/-! ## Surveys of trees whose differences are not counted -/

section Undetected

variable (recorded : Recorded c t t' log last) (undetected : (relevantChanges c log last).size = 0)

include recorded undetected

theorem scan_of_undetected (rules : RuleFile.all t' = RuleFile.all t) : c.scan t' = c.scan t := by
  refine ScanContext.scan_eq rules fun names some found => recorded.sameAt undetected ?_
  obtain ⟨source, kept⟩ := ScanContext.judged_of_finds some found
  rw [ScanContext.concerns, source, kept, Bool.not_false, Bool.and_true, Bool.or_true]

theorem declared_of_undetected (root : t.FolderAt c.rootPath c.root) (root' : t'.FolderAt c.rootPath c.root) :
    (Declared.read t c.rootPath).SameBut (Declared.read t' c.rootPath) := by
  refine Declared.read_sameBut root root' fun file listed => recorded.sameAt undetected ?_
  rw [ScanContext.concerns, Bool.or_eq_true, Bool.or_eq_true, decide_eq_true_eq, decide_eq_true_eq]
  rw [List.mem_cons, List.mem_singleton] at listed
  exact .inl listed

end Undetected

namespace Run

/-- Where no recorded difference counts and the rules of what is ignored are the same, the automatic regions of all
kinds but one are the same.  That of the technology is the same exactly if the package manager is, and so are all where
the lock files are the same. -/
theorem region_of_undetected (root : t.FolderAt c.rootPath c.root) (root' : t'.FolderAt c.rootPath c.root)
    (recorded : Recorded c t t' log last) (undetected : (relevantChanges c log last).size = 0)
    (rules : RuleFile.all t' = RuleFile.all t) :
    (∀ k, k ≠ .techStack → AutoRegion.ofContent ((Survey.take c t').content k) =
      AutoRegion.ofContent ((Survey.take c t).content k)) ∧
    (AutoRegion.ofContent ((Survey.take c t').content .techStack) =
        AutoRegion.ofContent ((Survey.take c t).content .techStack) ↔
      (Declared.read t' c.rootPath).packageManager? = (Declared.read t c.rootPath).packageManager?) ∧
    ((∀ file ∈ Declared.lockfileManagers.map (·.1), t.SameAt t' (c.root ++ [file])) →
      ∀ k, AutoRegion.ofContent ((Survey.take c t').content k) =
        AutoRegion.ofContent ((Survey.take c t).content k)) := by
  have scan := scan_of_undetected recorded undetected rules
  have declared := declared_of_undetected recorded undetected root root'
  have others (k : Kind) (other : k ≠ .techStack) : AutoRegion.ofContent ((Survey.take c t').content k) =
      AutoRegion.ofContent ((Survey.take c t).content k) :=
    congrArg AutoRegion.ofContent (Survey.content_eq scan declared other)
  have kind := (Survey.kind_content (Survey.take c t') .techStack).trans
    (Survey.kind_content (Survey.take c t) .techStack).symm
  have exact : AutoRegion.ofContent ((Survey.take c t').content .techStack) =
      AutoRegion.ofContent ((Survey.take c t).content .techStack) ↔
        (Declared.read t' c.rootPath).packageManager? = (Declared.read t c.rootPath).packageManager? := by
    refine Iff.trans ⟨fun same => ?_, congrArg AutoRegion.ofContent⟩ (Survey.techStack_eq_iff scan declared)
    exact AutoRegion.ofContent_inj (Survey.fits_content c t .techStack) (Survey.fits_content c t' .techStack) kind same
  refine ⟨others, exact, fun same k => ?_⟩
  by_cases tech : k = .techStack
  · rw [tech, exact]
    exact declared.packageManager?_eq (Declared.lockfiles_eq root root' same)
  · exact others k tech

/-- The sample repository with a package. -/
def packageTree : FileTree := sampleTree.put ["r", "package.json"] (.file [0x7b, 0x7d])

/-- The history in which one file is added. -/
def additionLog (file : String) : ChangeLog := ⟨[⟨1, [(.added, file)]⟩]⟩

/-- A file that is not read changes no region. -/
theorem region_of_undetected_readme :
    ∃ t', t' = packageTree.put ["r", "README.md"] (.file [0x23]) ∧
      packageTree.FolderAt sampleContext.rootPath sampleContext.root ∧
      t'.FolderAt sampleContext.rootPath sampleContext.root ∧
      Recorded sampleContext packageTree t' (additionLog "README.md") ⟨0, 0⟩ ∧
      (relevantChanges sampleContext (additionLog "README.md") ⟨0, 0⟩).size = 0 ∧
      RuleFile.all t' = RuleFile.all packageTree ∧
      ∀ k, AutoRegion.ofContent ((Survey.take sampleContext t').content k) =
        AutoRegion.ofContent ((Survey.take sampleContext packageTree).content k) := by
  have root : packageTree.FolderAt sampleContext.rootPath sampleContext.root := ⟨by decide +kernel, by decide +kernel⟩
  have root' := root.of_keeps (FileTree.keeps_put (l := ["r", "README.md"]) (e := .file [0x23]) (by decide +kernel))
  have recorded : Recorded sampleContext packageTree (packageTree.put ["r", "README.md"] (.file [0x23]))
      (additionLog "README.md") ⟨0, 0⟩ := by
    intro names differ
    have here : names = ["README.md"] := by
      by_contra other
      refine differ (FileTree.sameAt_put fun same => other ?_)
      exact (List.cons.inj (show "r" :: names = ["r", "README.md"] from same)).2
    rw [here]
    decide +kernel
  have undetected : (relevantChanges sampleContext (additionLog "README.md") ⟨0, 0⟩).size = 0 := by decide +kernel
  have rules : RuleFile.all (packageTree.put ["r", "README.md"] (.file [0x23])) = RuleFile.all packageTree := by
    refine RuleFile.all_eq fun l drawn => FileTree.sameAt_put ?_
    rintro rfl
    cases drawn
  have locks : ∀ file ∈ Declared.lockfileManagers.map (·.1), ["r", file] ≠ ["r", "README.md"] := by decide
  refine ⟨_, rfl, root, root', recorded, undetected, rules, ?_⟩
  exact (region_of_undetected root root' recorded undetected rules).2.2 fun file listed =>
    FileTree.sameAt_put (locks file listed)

/-- A lock file that is added does not count, and yet it tells another package manager. -/
example : (relevantChanges sampleContext (additionLog "yarn.lock") ⟨0, 0⟩).size = 0 ∧
    (Declared.read packageTree sampleContext.rootPath).packageManager? = some "npm" ∧
    (Declared.read (packageTree.put ["r", "yarn.lock"] (.file [])) sampleContext.rootPath).packageManager? =
      some "yarn" := by
  decide +kernel

end Run

end Gazetteer
