import Gazetteer.Proofs.History.Net
import Gazetteer.Proofs.Registry.KeyIndex
import Gazetteer.Proofs.Upkeep.Recovery
import Gazetteer.Proofs.Upkeep.Stability

/-!
# What is current after a refresh

Right after a refresh the index that a manifest documents is the known one, so nothing is missing from it, and only
its age can make it stale (`Run.status_of_refresh`).  History can add an orphan at most, where a path that it reports
as deleted has items all the same.
-/

namespace Gazetteer

set_option autoImplicit false

/-! ## Assessing a manifest whose index is the known one -/

section Assess

variable {c : ScanContext} {log : Option ChangeLog} {now : Time.Instant} {known : KeyIndex} {k : Kind}
  {d : Document}

/-- A manifest is current up to its age. -/
structure Assessment.Fresh (a : Assessment) (c : ScanContext) (version : UInt64) (days : Int) : Prop where
  covered : a.coverage.documented = a.coverage.total
  version : a.version = some version
  missing : a.missing = []
  standing : a.standing = if c.staleAfterDays < days then .stale [.age days] else .current

theorem Assessment.staleReasons_of_age {a : Assessment} {limit days : Int} (missing : a.missing = [])
    (orphaned : a.orphaned = []) :
    a.staleReasons limit days = if limit < days then [.age days] else [] := by
  rw [staleReasons, missing, orphaned]
  rfl

theorem standing_of_age (limit days : Int) :
    Standing.ofReasons (if limit < days then [.age days] else []) =
      if limit < days then .stale [.age days] else .current := by
  split <;> rfl

theorem assessDocument_fresh (c : ScanContext) (log : Option ChangeLog) (now : Time.Instant)
    (indexed : d.auto.keyIndex k = .ok known)
    (deleted : ∀ log', log = some log' → ∀ path ∈ (log'.since d.metadata.lastUpdated).having .deleted,
      known.covers path = false) :
    (assessDocument c log now known k d).Fresh c d.metadata.version (d.metadata.lastUpdated.daysUntil now) := by
  have covered : (Coverage.between known known).documented = (Coverage.between known known).total := by
    rw [KeyIndex.between_self]
    exact Nat.min_self _
  rw [assessDocument, indexed]
  cases log with
  | none =>
    refine ⟨covered, rfl, rfl, ?_⟩
    exact standing_of_age _ _
  | some log' =>
    have gone : ∀ path ∈ (relevantChanges c log' d.metadata.lastUpdated).having .deleted, known.covers path = false :=
      fun path member => deleted log' rfl path (ChangeSet.mem_having_keep.1 member).1
    have missing : ((relevantChanges c log' d.metadata.lastUpdated).touched.filter fun path =>
        known.covers path && !known.covers path) = [] := by
      refine List.filter_eq_nil_iff.2 fun path _ => ?_
      rw [Bool.and_not_self]
      exact Bool.false_ne_true
    have orphaned : ((relevantChanges c log' d.metadata.lastUpdated).having .deleted).filter known.covers = [] := by
      refine List.filter_eq_nil_iff.2 fun path member => ?_
      rw [gone path member]
      exact Bool.false_ne_true
    refine ⟨covered, rfl, missing, ?_⟩
    refine Eq.trans (congrArg Standing.ofReasons (Assessment.staleReasons_of_age ?_ ?_)) (standing_of_age _ _)
    · exact missing
    · exact orphaned

theorem assess_loaded {analysis : Analysis} :
    assess c analysis now (k, .loaded d) = assessDocument c analysis.log now (analysis.survey.keyIndex k) k d := rfl

theorem assess_kind {analysis : Analysis} {found : Found} : (assess c analysis now found).kind = found.1 := by
  obtain ⟨k, prior⟩ := found
  cases prior with
  | missing => rfl
  | corrupt reason raw => rfl
  | loaded d =>
    change (assessDocument c analysis.log now (analysis.survey.keyIndex k) k d).kind = k
    rw [assessDocument]
    dsimp only
    split
    · rfl
    · split <;> rfl

/-- Whatever is found for a kind, the total is the number of known keys. -/
theorem assess_total {analysis : Analysis} {found : Found} :
    (assess c analysis now found).coverage.total = (analysis.survey.keyIndex found.1).count := by
  obtain ⟨k, prior⟩ := found
  cases prior with
  | missing => rfl
  | corrupt reason raw => rfl
  | loaded d =>
    change (assessDocument c analysis.log now (analysis.survey.keyIndex k) k d).coverage.total = _
    rw [assessDocument]
    dsimp only
    split
    · rfl
    · split <;> rfl

end Assess

/-! ## A look after a refresh -/

namespace Run

variable {c : ScanContext} {t t' : FileTree} {history history' : History} {now now' : Time.Instant}
  {kinds skipped : List Kind}
  {report : RefreshReport} {l : Location}

theorem status_kinds : (status c t history now).result.manifests.map (·.kind) = Kind.all := by
  change ((Kind.all.map fun k => (k, (store c).load t k)).map _).map _ = Kind.all
  rw [List.map_map, List.map_map]
  refine (List.map_congr_left fun k _ => ?_).trans (List.map_id' _)
  exact assess_kind

theorem Written.updated_kinds (written : Written c t history now kinds skipped t' report) :
    report.updated.map (·.kind) = kinds := by
  obtain ⟨settled, rfl, each⟩ := written.settled
  exact updated_kinds skipped (each.imp fun k s done => done.imp fun fresh both => both.1)

/-- The known keys are what they were. -/
theorem Written.keyIndex (written : Written c t history now kinds skipped t' report) (k : Kind) :
    (Survey.take c t').keyIndex k = (Survey.take c t).keyIndex k := congrArg Content.keyIndex (written.content k)

/-- A manifest that a run has written follows what was found, and documents all known keys. -/
theorem Written.loaded (written : Written c t history now kinds skipped t' report) {k : Kind} (listed : k ∈ kinds) :
    ∃ fresh, (store c).load t' k =
        .loaded (stored c (Analysis.make c t history ((store c).loadAll t kinds)) now (k, (store c).load t k) fresh) ∧
      (stored c (Analysis.make c t history ((store c).loadAll t kinds)) now (k, (store c).load t k)
        fresh).auto.keyIndex k = .ok ((Survey.take c t).keyIndex k) := by
  obtain ⟨settled, -, each⟩ := written.settled
  obtain ⟨s, -, fresh, settles, loaded⟩ := Outcome.exists_of_mem_left each listed
  exact ⟨fresh, loaded, settles.keyIndex⟩

/-- What a look finds of the manifests that a run has written. -/
theorem Written.fresh (written : Written c t history now kinds skipped t' report)
    (deleted : ∀ log, (status c t' history' now').asked.bind history' = some log → ∀ k ∈ kinds,
      ∀ path ∈ (log.since now).having .deleted, ((Survey.take c t').keyIndex k).covers path = false)
    {u : Update} (updated : u ∈ report.updated) {a : Assessment}
    (looked : a ∈ (status c t' history' now').result.manifests)
    (kind : a.kind = u.kind) : a.Fresh c u.version (now.daysUntil now') := by
  obtain ⟨settled, rfl, each⟩ := written.settled
  obtain ⟨s, member, rfl⟩ := List.mem_map.1 updated
  obtain ⟨k, chosen, fresh, settles, loaded⟩ := Outcome.exists_of_mem_right each member
  obtain ⟨found, within, rfl⟩ := List.mem_map.1 looked
  obtain ⟨k', -, rfl⟩ := List.mem_map.1 within
  rw [assess_kind, settles.update] at kind
  cases kind
  have indexed := settles.keyIndex
  have survey : (Analysis.make c t history ((store c).loadAll t kinds)).survey = Survey.take c t := rfl
  rw [survey, ← written.keyIndex k] at indexed
  have assessed := assessDocument_fresh c (Analysis.make c t' history' ((store c).loadAll t' Kind.all)).log now' indexed
  rw [stored_lastUpdated, stored_version] at assessed
  rw [settles.update, loaded, assess_loaded]
  dsimp only
  exact assessed fun log asked => deleted log asked k chosen

/-- After a refresh every manifest it wrote documents all items, in the version that was reported, and is current up
to its age. -/
theorem status_of_refresh (history' : History) (now' : Time.Instant) (housed : Housed c t)
    (direct : c.manifestDir.Direct l) (range : now.inRange = true)
    (done : (refresh c t history now kinds).result = .ok report)
    (deleted : ∀ log, (status c (refresh c t history now kinds).tree history' now').asked.bind history' = some log →
      ∀ k ∈ kinds, ∀ path ∈ (log.since now).having .deleted,
        ((Survey.take c (refresh c t history now kinds).tree).keyIndex k).covers path = false) :
    report.updated.map (·.kind) = kinds ∧
      (status c (refresh c t history now kinds).tree history' now').result.manifests.map (·.kind) = Kind.all ∧
      ∀ u ∈ report.updated, ∀ a ∈ (status c (refresh c t history now kinds).tree history' now').result.manifests,
        a.kind = u.kind → a.Fresh c u.version (now.daysUntil now') := by
  obtain rfl | filled : kinds = [] ∨ kinds ≠ [] := Classical.em _
  · cases done
    exact ⟨rfl, status_kinds, nofun⟩
  · have written := written_of_refresh housed direct range filled done
    exact ⟨written.updated_kinds, status_kinds, fun u updated a looked kind => written.fresh deleted updated looked kind⟩

/-- A refresh of the filled repository. -/
def sampleRefresh : Run (Except RunError RefreshReport) :=
  refresh sampleContext filledTree (fun _ => none) ⟨0, 0⟩ [.techStack, .symbols]

theorem written_sample : ∃ report, sampleRefresh.result = .ok report ∧
    Written sampleContext filledTree (fun _ => none) ⟨0, 0⟩ [.techStack, .symbols] [] sampleRefresh.tree report := by
  have kinds : [Kind.techStack, .symbols] ≠ [] := List.cons_ne_nil _ _
  obtain ⟨settled, -, done⟩ := unhindered_filled.exists_report kinds (fun _ => none) ⟨0, 0⟩
  rw [sampleRefresh]
  exact ⟨_, done, written_of_refresh housed_filled direct_sample (by decide) kinds done⟩

theorem count_filled : ((Survey.take sampleContext filledTree).keyIndex .techStack).count = 3 := by decide +kernel

/-- A history in which one file was changed after the refresh, and another deleted before it. -/
def sampleLog : ChangeLog := ⟨[⟨3600, [(.modified, "src/a.ts")]⟩, ⟨-60, [(.deleted, "src/b.ts")]⟩]⟩

/-- Eight days after the refresh all items of both manifests are documented, and only their age is against them. -/
theorem status_of_refresh_sample :
    ∃ report, sampleRefresh.result = .ok report ∧ report.updated.map (·.kind) = [.techStack, .symbols] ∧
      (∀ u ∈ report.updated, ∀ a ∈ (status sampleContext sampleRefresh.tree (fun _ => some sampleLog)
        ⟨691200, 0⟩).result.manifests, a.kind = u.kind → a.Fresh sampleContext u.version 8) ∧
      ∃ a ∈ (status sampleContext sampleRefresh.tree (fun _ => some sampleLog) ⟨691200, 0⟩).result.manifests,
        a.kind = .techStack ∧ a.coverage.documented = 3 ∧ a.standing = .stale [.age 8] := by
  obtain ⟨report, done, written⟩ := written_sample
  have deleted : (sampleLog.since ⟨0, 0⟩).having .deleted = [] := by decide +kernel
  rw [sampleRefresh] at done written ⊢
  obtain ⟨updated, manifests, fresh⟩ := status_of_refresh (fun _ => some sampleLog) ⟨691200, 0⟩ housed_filled
    direct_sample (by decide) done fun log asked _ _ path member => by
      obtain ⟨_, _, same⟩ := Option.bind_eq_some_iff.1 asked
      cases same
      rw [deleted] at member
      cases member
  have refreshed : Kind.techStack ∈ report.updated.map (·.kind) := updated ▸ List.mem_cons_self
  obtain ⟨u, listed, tech⟩ := List.mem_map.1 refreshed
  obtain ⟨a, looked, kind⟩ := List.mem_map.1 (manifests ▸ Kind.techStack.mem_all)
  have current := fresh u listed a looked (kind.trans tech.symm)
  refine ⟨report, done, updated, fresh, a, looked, kind, ?_, current.standing⟩
  obtain ⟨found, within, rfl⟩ := List.mem_map.1 looked
  obtain ⟨k, -, rfl⟩ := List.mem_map.1 within
  rw [assess_kind] at kind
  cases kind
  rw [current.covered, assess_total]
  exact (congrArg KeyIndex.count (written.keyIndex .techStack)).trans count_filled

end Run

end Gazetteer
