import Gazetteer.Proofs.History.Net
import Gazetteer.Proofs.Project.Walk
import Gazetteer.Upkeep.Analysis

/-!
# Which changes are counted

Change detection judges a path by itself: its extension, and whether a pattern excludes it.  The walk for source files
also leaves out what is hidden, ignored by a rule or part of the manifest directory, and does not look into a folder
that is left out.  So every scanned file is counted when it changes, but a file that the walk does not get to is counted
as well if only its own path is not excluded (`ScanContext.Overlooked`).  Nothing else is counted
(`ScanContext.mem_relevantChanges`).
-/

namespace Gazetteer

set_option autoImplicit false

namespace ScanContext

variable {c : ScanContext} {t : FileTree} {names front : List String} {isFolder : Bool}

/-- Why the walk for source files leaves out something that it comes by. -/
inductive Omits (c : ScanContext) (t : FileTree) (names : List String) (isFolder : Bool) : Prop
  /-- A file with rules says that it is ignored. -/
  | ignored (told : RuleFile.decide? (RuleFile.all t) c.respectGitignore (c.root ++ names) isFolder = some .ignored)
  /-- Its name starts with a dot, and no rule says that it is kept. -/
  | hidden {name : String} (silent : RuleFile.decide? (RuleFile.all t) c.respectGitignore (c.root ++ names) isFolder = none)
      (last : names.getLast? = some name) (dot : Text.startsWith name "." = true)
  /-- It is the manifest directory or below it. -/
  | manifests (under : (FileTree.pathOf (c.root ++ names)).isUnder c.manifestDir = true)
  /-- A pattern excludes it. -/
  | excluded (excluded : c.isExcluded (String.intercalate "/" names) isFolder = true)

theorem admits_eq_false_iff : c.admits (RuleFile.all t) names isFolder = false ↔ c.Omits t names isFolder := by
  rw [admits, Bool.and_eq_false_iff, Bool.and_eq_false_iff, Bool.not_eq_false', Bool.not_eq_false']
  constructor
  · rintro ((unseen | under) | excluded)
    · split at unseen
      · rename_i verdict told
        cases verdict with
        | ignored => exact .ignored told
        | kept => cases unseen
      · rename_i silent
        rw [Bool.not_eq_false', Option.any_eq_true] at unseen
        obtain ⟨name, last, dot⟩ := unseen
        exact .hidden silent last dot
    · exact .manifests under
    · exact .excluded excluded
  · rintro (told | ⟨silent, last, dot⟩ | under | excluded)
    · rw [told]
      exact .inl (.inl rfl)
    · rw [silent, last]
      dsimp only
      rw [Option.any_some, dot]
      exact .inl (.inl rfl)
    · exact .inl (.inr under)
    · exact .inr excluded

/-- A file has the extension of a source file and is not excluded by its own path, but the walk leaves it out, or a folder
on the way to it. -/
structure Overlooked (c : ScanContext) (t : FileTree) (names : List String) : Prop where
  source : c.isSource (String.intercalate "/" names) = true
  kept : c.isExcluded (String.intercalate "/" names) false = false
  omitted : ∃ front, front ≠ [] ∧ front <+: names ∧ c.Omits t front (front ≠ names)

theorem leadsTo_eq_false_iff : c.leadsTo (RuleFile.all t) [] names = false ↔
    ∃ front, front ≠ [] ∧ front <+: names ∧ c.Omits t front (front ≠ names) := by
  rw [Bool.eq_false_iff, ne_eq, leadsTo_iff]
  simp only [List.nil_append, ← admits_eq_false_iff, not_forall, exists_prop, Bool.not_eq_true]

/-- A source file that is not excluded by its own path is found or overlooked, and not both. -/
theorem finds_iff (source : c.isSource (String.intercalate "/" names) = true)
    (kept : c.isExcluded (String.intercalate "/" names) false = false) :
    c.finds (RuleFile.all t) names = true ↔ ¬c.Overlooked t names := by
  rw [finds, source, Bool.and_true, ← Bool.not_eq_false, leadsTo_eq_false_iff]
  exact not_congr ⟨fun omitted => ⟨source, kept, omitted⟩, Overlooked.omitted⟩

/-- A file is scanned under a path. -/
def Scans (c : ScanContext) (t : FileTree) (path : String) : Prop := ∃ f ∈ c.scan t, f.relative = path

section File

variable {bytes : List UInt8} (valid : t.Valid) (below : names ≠ []) (here : t.get? (c.root ++ names) = some (.file bytes))

include valid below here

theorem scans_iff : c.Scans t (String.intercalate "/" names) ↔ c.finds (RuleFile.all t) names = true := by
  constructor
  · rintro ⟨f, scanned, same⟩
    obtain ⟨below', there, found⟩ := (mem_scan valid).1 scanned
    have plain : ∀ s ∈ names, Path.IsName s := fun s member => valid.names _ _ here s (List.mem_append_right _ member)
    have plain' : ∀ s ∈ f.names, Path.IsName s := fun s member =>
      valid.names _ _ there s (List.mem_append_right _ member)
    rwa [Path.eq_of_intercalate plain' below' plain below same] at found
  · intro found
    exact ⟨⟨names, bytes⟩, (mem_scan valid).2 ⟨below, here, found⟩, rfl⟩

/-- A file is judged by its own path to be a source file exactly if it is scanned or overlooked. -/
theorem isSource_iff : (c.isSource (String.intercalate "/" names) = true ∧
      c.isExcluded (String.intercalate "/" names) false = false) ↔
    c.Scans t (String.intercalate "/" names) ∨ c.Overlooked t names := by
  rw [scans_iff valid below here]
  constructor
  · rintro ⟨source, kept⟩
    rw [finds_iff source kept]
    exact (Classical.em _).symm
  · rintro (found | overlooked)
    · exact judged_of_finds below found
    · exact ⟨overlooked.source, overlooked.kept⟩

/-- Of the files that history reports with some change, those are counted that declare dependencies, are scanned, or are
overlooked; and no file is both scanned and overlooked. -/
theorem mem_relevantChanges {log : ChangeLog} {last : Time.Instant} {change : Change}
    (reported : String.intercalate "/" names ∈ (log.since last).having change) :
    (String.intercalate "/" names ∈ (relevantChanges c log last).having change ↔
      String.intercalate "/" names = "package.json" ∨ String.intercalate "/" names = "Cargo.toml" ∨
        c.Scans t (String.intercalate "/" names) ∨ c.Overlooked t names) ∧
      ¬(c.Scans t (String.intercalate "/" names) ∧ c.Overlooked t names) := by
  constructor
  · rw [relevantChanges, ChangeSet.mem_having_keep, and_iff_right reported, ← isSource_iff valid below here, concerns,
      Bool.or_eq_true, Bool.or_eq_true, Bool.and_eq_true, Bool.not_eq_true', decide_eq_true_eq, decide_eq_true_eq,
      or_assoc]
    rfl
  · rintro ⟨scanned, overlooked⟩
    rw [scans_iff valid below here, finds_iff overlooked.source overlooked.kept] at scanned
    exact scanned overlooked

end File

/-- A history in which a file is modified. -/
def editLog (file : String) : ChangeLog := ⟨[⟨1, [(.modified, file)]⟩]⟩

/-- A change to a source file in a hidden folder is counted, although the file is not scanned. -/
theorem mem_relevantChanges_hidden :
    sampleTree.get? ["r", ".old", "a.ts"] = some (.file []) ∧
      ".old/a.ts" ∈ ((editLog ".old/a.ts").since ⟨0, 0⟩).having .modified ∧
      ".old/a.ts" ∈ (relevantChanges sample (editLog ".old/a.ts") ⟨0, 0⟩).having .modified ∧
      ¬sample.Scans sampleTree ".old/a.ts" := by
  have path : String.intercalate "/" [".old", "a.ts"] = ".old/a.ts" := by decide +kernel
  have reported : ".old/a.ts" ∈ ((editLog ".old/a.ts").since ⟨0, 0⟩).having .modified := by decide +kernel
  have here : sampleTree.get? (sample.root ++ [".old", "a.ts"]) = some (.file []) := by decide +kernel
  have overlooked : sample.Overlooked sampleTree [".old", "a.ts"] := by
    refine ⟨by decide +kernel, by decide +kernel, [".old"], by decide, by decide, ?_⟩
    exact .hidden (by decide +kernel) rfl (by decide +kernel)
  rw [← path] at reported ⊢
  obtain ⟨counted, apart⟩ := mem_relevantChanges valid_sampleTree (by decide) here reported
  exact ⟨here, reported, counted.2 (.inr (.inr (.inr overlooked))), fun scanned => apart ⟨scanned, overlooked⟩⟩

end ScanContext

end Gazetteer
