import Gazetteer.Convention.Detect
import Gazetteer.Proofs.Convention.Counters
import Mathlib.Tactic.FinCases

/-!
# More signals, more findings

A source rule asks for a least number of signals, and a tool for one of its packages.  So signals and dependencies that
are added never take a finding away (`conventions_sublist`), and what is found tells of the dependencies only which they
are.  The signals of a repository are those of its files added up; as long as they fit into their words, each file
contributes to them (`Signals.below_merged`), in whatever order the files come.
-/

namespace Gazetteer

set_option autoImplicit false

/-! ## Signals -/

namespace Signals

variable {s t : Signals} {f : String × (Signals → BitVec 32)}

/-- Every counter of the first is at most that of the second. -/
def Below (s t : Signals) : Prop := ∀ f ∈ fields, f.2 s ≤ f.2 t

instance (s t : Signals) : Decidable (Below s t) := inferInstanceAs (Decidable (∀ f ∈ fields, f.2 s ≤ f.2 t))

/-- What the signals of some files amount to fits into the words that count it. -/
def Fit (files : List Signals) : Prop := ∀ f ∈ fields, together f.2 files < 2 ^ 32

instance (files : List Signals) : Decidable (Fit files) :=
  inferInstanceAs (Decidable (∀ f ∈ fields, together f.2 files < 2 ^ 32))

theorem isCounter_of_mem (member : f ∈ fields) : IsCounter f.2 := by
  fin_cases member <;> exact fun _ _ => rfl

/-- Signals may be merged in any order. -/
theorem merged_perm {further all : List Signals} (perm : all.Perm (s :: further)) :
    all.foldl (· + ·) {} = further.foldl (· + ·) s := by
  have first : (s :: further).foldl (· + ·) {} = further.foldl (· + ·) s := by rw [List.foldl_cons, zero_add]
  rw [← first]
  exact perm.foldl_eq' (fun _ _ _ _ r => r.add_right_comm _ _) _

/-- Merging the signals of further files lowers no counter, if none overflows. -/
theorem below_merged {further : List Signals} (fit : Fit (s :: further)) : s.Below (further.foldl (· + ·) s) := by
  intro f member
  have fits : (f.2 s).toNat + together f.2 further < 2 ^ 32 := together_cons s further ▸ fit f member
  have sum : (f.2 (further.foldl (· + ·) s)).toNat = (f.2 s).toNat + together f.2 further :=
    toNat_foldl_add (isCounter_of_mem member) id fits
  rw [BitVec.le_def, sum]
  exact Nat.le_add_right _ _

end Signals

namespace SourceRule

/-- Every rule looks at one of the counters. -/
theorem counter_mem_fields {r : SourceRule} (member : r ∈ all) : r.counter ∈ Signals.fields.map (·.2) := by
  fin_cases member <;> simp [Signals.fields]

theorem applies_of_below {s t : Signals} (below : s.Below t) {r : SourceRule} (member : r ∈ all)
    (applies : r.applies s = true) : r.applies t = true := by
  obtain ⟨f, counted, same⟩ := List.mem_map.1 (counter_mem_fields member)
  have more : r.counter s ≤ r.counter t := same ▸ below f counted
  rw [SourceRule.applies, decide_eq_true_eq] at applies ⊢
  exact BitVec.le_trans applies more

/-- The rules that apply still do when there are more signals. -/
theorem filter_sublist {s t : Signals} (below : s.Below t) :
    (all.filter (·.applies s)).Sublist (all.filter (·.applies t)) := by
  have inner : all.filter (·.applies s) = (all.filter (·.applies t)).filter (·.applies s) := by
    rw [List.filter_filter]
    refine List.filter_congr fun r member => ?_
    cases applies : r.applies s with
    | false => rfl
    | true => exact (applies_of_below below member applies).symm
  rw [inner]
  exact List.filter_sublist

end SourceRule

/-! ## Dependencies -/

namespace DependencyRule

theorem matchedBy_iff {r : DependencyRule} {names : List String} :
    r.matchedBy names = true ↔ ∃ p ∈ r.packages, p ∈ names := by
  rw [matchedBy, List.any_eq_true]
  simp only [List.contains_iff_mem]

/-- No two tools of the table share role and label. -/
theorem nodup_all : (all.map fun r => (r.role, r.label)).Nodup := by
  decide +kernel

end DependencyRule

theorem eraseDups_of_nodup {α : Type} [BEq α] [LawfulBEq α] {xs : List α} (nodup : xs.Nodup) : xs.eraseDups = xs := by
  induction xs with
  | nil => rfl
  | cons a xs ih =>
    obtain ⟨other, nodup⟩ := List.nodup_cons.1 nodup
    have kept : (xs.filter fun b => !b == a) = xs := by
      refine List.filter_eq_self.2 fun b member => ?_
      rw [Bool.not_eq_true', beq_eq_false_iff_ne]
      rintro rfl
      exact other member
    rw [List.eraseDups_cons, kept, ih nodup]

/-- Of the table of tools those remain that some dependencies stand for. -/
theorem toolsOf_eq (names : List String) :
    toolsOf names = (DependencyRule.all.filter fun r => r.matchedBy names).map fun r => (r.role, r.label) :=
  eraseDups_of_nodup (DependencyRule.nodup_all.sublist (List.filter_sublist.map _))

theorem toolsOf_sublist {names more : List String} (known : names ⊆ more) :
    (toolsOf names).Sublist (toolsOf more) := by
  rw [toolsOf_eq, toolsOf_eq]
  refine (List.monotone_filter_right _ fun r matched => ?_).map _
  obtain ⟨p, package, member⟩ := DependencyRule.matchedBy_iff.1 matched
  exact DependencyRule.matchedBy_iff.2 ⟨p, package, known member⟩

theorem mem_toolsOf {names : List String} {role : ToolRole} {label : String} :
    (role, label) ∈ toolsOf names ↔
      ∃ r ∈ DependencyRule.all, r.role = role ∧ r.label = label ∧ ∃ p ∈ r.packages, p ∈ names := by
  rw [toolsOf_eq, List.mem_map]
  simp only [List.mem_filter, DependencyRule.matchedBy_iff, Prod.mk.injEq]
  constructor
  · rintro ⟨r, ⟨listed, matched⟩, same, same'⟩
    exact ⟨r, listed, same, same', matched⟩
  · rintro ⟨r, listed, same, same', matched⟩
    exact ⟨r, ⟨listed, matched⟩, same, same'⟩

theorem nodup_toolsOf (names : List String) : (toolsOf names).Nodup := by
  rw [toolsOf_eq]
  exact DependencyRule.nodup_all.sublist (List.filter_sublist.map _)

theorem toolsOf_congr {names names' : List String} (same : ∀ name, name ∈ names ↔ name ∈ names') :
    toolsOf names' = toolsOf names := by
  have matched (r : DependencyRule) : r.matchedBy names' = r.matchedBy names := by
    rw [Bool.eq_iff_iff, DependencyRule.matchedBy_iff, DependencyRule.matchedBy_iff]
    simp only [same]
  rw [toolsOf_eq, toolsOf_eq, funext matched]

/-! ## Conventions -/

/-- More signals and more dependencies leave every finding in its place. -/
theorem conventions_sublist (symbols : List Symbol) {s t : Signals} (below : s.Below t) {names more : List String}
    (known : names ⊆ more) : (detectConventions s symbols names).Sublist (detectConventions t symbols more) :=
  (((SourceRule.filter_sublist below).map _).append (List.Sublist.refl _)).append ((toolsOf_sublist known).filterMap _)

/-- How the findings grow with signals and dependencies. -/
structure ConventionsGrow (symbols : List Symbol) : Prop where
  /-- Every finding stays, and in its order. -/
  findings : ∀ s t : Signals, s.Below t → ∀ names more : List String, names ⊆ more →
    (detectConventions s symbols names).Sublist (detectConventions t symbols more)
  /-- The signals of further files only add, in whatever order all are merged. -/
  merged : ∀ (s : Signals) (further all : List Signals), all.Perm (s :: further) → Signals.Fit all →
    all.foldl (· + ·) {} = further.foldl (· + ·) s ∧ s.Below (further.foldl (· + ·) s)
  /-- Neither the order of dependencies counts nor how often one is declared. -/
  dependencies : ∀ (s : Signals) (names names' : List String), (∀ name, name ∈ names ↔ name ∈ names') →
    detectConventions s symbols names' = detectConventions s symbols names
  nodup : ∀ names, (toolsOf names).Nodup
  /-- A tool is told by one of its packages. -/
  packages : ∀ names role label, (role, label) ∈ toolsOf names ↔
    ∃ r ∈ DependencyRule.all, r.role = role ∧ r.label = label ∧ ∃ p ∈ r.packages, p ∈ names

theorem conventions_grow (symbols : List Symbol) : ConventionsGrow symbols where
  findings _ _ below _ _ known := conventions_sublist symbols below known
  merged s further all perm fit := by
    have fit' : Signals.Fit (s :: further) := fun f member => together_perm perm ▸ fit f member
    exact ⟨Signals.merged_perm perm, Signals.below_merged fit'⟩
  dependencies s names names' same := by rw [detectConventions, detectConventions, toolsOf_congr same]
  nodup := nodup_toolsOf
  packages _ _ _ := mem_toolsOf

/-- With a second file there are two result objects, which is enough for a finding, and a client library is a finding of
its own. -/
theorem conventions_grow_second :
    Signals.Fit [{ tryCatch := 1, resultObjects := 1 }, { resultObjects := 1 }] ∧
      detectConventions { tryCatch := 1, resultObjects := 1 } [] ["react"] =
        [⟨.errorHandling, "try/catch blocks around fallible operations"⟩] ∧
      (detectConventions { tryCatch := 1, resultObjects := 1 } [] ["react"]).Sublist
        (detectConventions ([{ resultObjects := 1 }].foldl (· + ·) { tryCatch := 1, resultObjects := 1 }) []
          ["axios", "react"]) ∧
      detectConventions ([{ resultObjects := 1 }].foldl (· + ·) { tryCatch := 1, resultObjects := 1 }) []
          ["axios", "react"] =
        [⟨.errorHandling, "try/catch blocks around fallible operations"⟩,
          ⟨.errorHandling, "Result objects carrying ok/error fields"⟩, ⟨.dataFlow, "HTTP client library: axios"⟩] := by
  have fit : Signals.Fit [{ tryCatch := 1, resultObjects := 1 }, { resultObjects := 1 }] := by decide
  have grow := conventions_grow []
  obtain ⟨-, below⟩ := grow.merged _ [{ resultObjects := 1 }] _ (.refl _) fit
  exact ⟨fit, by decide +kernel, grow.findings _ _ below _ _ (by decide), by decide +kernel⟩

end Gazetteer
