import Gazetteer.Proofs.Upkeep.Currency

/-!
# Refreshing again

A refresh right after another finds the repository as it was, whatever manifests stand in it by then.  It writes the
same automatic regions, and counts no changes and drops no keys (`Run.refresh_again`).
-/

namespace Gazetteer

set_option autoImplicit false

/-- No key of a region is dropped where the region itself follows. -/
theorem AutoRegion.dropped_self (r : AutoRegion) : (r.keys.filter fun key => !r.members.contains key) = [] := by
  refine List.filter_eq_nil_iff.2 fun key member => ?_
  rw [SortedMap.contains_iff_mem_keys.2 member]
  exact Bool.false_ne_true

theorem changeCount_unknown (c : ScanContext) (k : Kind) (d : Document) (known : KeyIndex) :
    changeCount c none k (.loaded d) known = .ofNat (((d.auto.keyIndex k).toOption.getD ∅).delta known) := rfl

namespace Run

variable {c : ScanContext} {t t' t'' : FileTree} {history : History} {now now' : Time.Instant} {kinds : List Kind}
  {skipped skipped' : List Kind} {report report' : RefreshReport} {l : Location}

/-- What a second run makes of a manifest that a first has written. -/
structure Again (c : ScanContext) (k : Kind) (d d' : Document) : Prop where
  auto : d'.auto = d.auto
  version : d'.metadata.version = d.metadata.version + 1
  changes : d'.metadata.changes = 0

section Second

variable {k : Kind} {fresh fresh' : AutoRegion} {s s' : Settled} {tree tree' : FileTree}
  {analysis analysis' : Analysis}
  {prior : Prior}

theorem fresh_eq (settles : Settles c tree analysis now (k, prior) fresh s)
    (again : Settles c tree' analysis' now' (k, .loaded (stored c analysis now (k, prior) fresh)) fresh' s')
    (content : analysis'.survey.content k = analysis.survey.content k) : fresh' = fresh := by
  have same := again.made
  rw [content, settles.made] at same
  cases same
  rfl

theorem again_of_settles (settles : Settles c tree analysis now (k, prior) fresh s)
    (again : Settles c tree' analysis' now' (k, .loaded (stored c analysis now (k, prior) fresh)) fresh' s')
    (content : analysis'.survey.content k = analysis.survey.content k) (unknown : analysis'.log = none) :
    Again c k (stored c analysis now (k, prior) fresh)
      (stored c analysis' now' (k, .loaded (stored c analysis now (k, prior) fresh)) fresh') := by
  have region := fresh_eq settles again content
  have index : analysis'.survey.keyIndex k = analysis.survey.keyIndex k := congrArg Content.keyIndex content
  have known := settles.keyIndex
  refine ⟨?_, rfl, ?_⟩
  · rw [stored_auto, stored_auto, region]
  · rw [stored_changes]
    dsimp only at known ⊢
    rw [unknown, changeCount_unknown, known, index]
    exact congrArg UInt64.ofNat (KeyIndex.delta_self _)

theorem issues_again (settles : Settles c tree analysis now (k, prior) fresh s)
    (again : Settles c tree' analysis' now' (k, .loaded (stored c analysis now (k, prior) fresh)) fresh' s')
    (content : analysis'.survey.content k = analysis.survey.content k) : s'.issues = [] := by
  have region := fresh_eq settles again content
  have dropped : (next c analysis' now' (k, .loaded (stored c analysis now (k, prior) fresh)) fresh').dropped = [] := by
    rw [next, merge]
    dsimp only
    rw [stored_auto, region]
    exact fresh.dropped_self
  rw [again.issues, droppedIssue, dropped]
  rfl

end Second

/-- After a second run every manifest that a first has written stands as it was, one version later. -/
theorem Written.again (first : Written c t history now kinds skipped t' report)
    (second : Written c t' (fun _ => none) now' kinds skipped' t'' report') {k : Kind} (listed : k ∈ kinds) :
    ∃ d d', (store c).load t' k = .loaded d ∧ (store c).load t'' k = .loaded d' ∧ Again c k d d' := by
  obtain ⟨settled, -, each⟩ := first.settled
  obtain ⟨s, -, fresh, settles, loaded⟩ := Outcome.exists_of_mem_left each listed
  obtain ⟨settled', -, each'⟩ := second.settled
  obtain ⟨s', -, fresh', settles', loaded'⟩ := Outcome.exists_of_mem_left each' listed
  rw [loaded] at settles' loaded'
  refine ⟨_, _, loaded, loaded', again_of_settles settles settles' (first.content k) ?_⟩
  exact Option.bind_fun_none _

theorem surveyIssues_topic (s : Survey) {i : Issue} (member : i ∈ surveyIssues s) :
    i.topic = .scan ∧ s.scanIssues ≠ [] ∨ i.topic = .extraction ∨ i.topic = .dependencies := by
  obtain front | dependencies := List.mem_append.1 member
  · obtain scan | extraction := List.mem_append.1 front
    · obtain ⟨issue, met, rfl⟩ := List.mem_map.1 scan
      exact .inl ⟨rfl, List.ne_nil_of_mem met⟩
    · obtain ⟨p, -, rfl⟩ := List.mem_map.1 extraction
      exact .inr (.inl rfl)
  · obtain ⟨p, -, rfl⟩ := List.mem_map.1 dependencies
    exact .inr (.inr rfl)

/-- The second run has nothing to say of the manifests. -/
theorem Written.issues_again (first : Written c t history now kinds skipped t' report)
    (second : Written c t' (fun _ => none) now' kinds skipped' t'' report') {i : Issue}
    (member : i ∈ report'.issues) :
    i.topic = .extraction ∨ i.topic = .dependencies := by
  obtain ⟨settled, -, each⟩ := first.settled
  obtain ⟨settled', rfl, each'⟩ := second.settled
  obtain survey | own := List.mem_append.1 member
  · refine (surveyIssues_topic _ survey).resolve_left fun stopped => stopped.2 ?_
    exact ScanContext.scanIssues_eq_nil first.housed.root
  · obtain ⟨s', inner, told⟩ := List.mem_flatMap.1 own
    obtain ⟨k, listed, fresh', settles', -⟩ := Outcome.exists_of_mem_right each' inner
    obtain ⟨s, -, fresh, settles, loaded⟩ := Outcome.exists_of_mem_left each listed
    rw [loaded] at settles'
    rw [Run.issues_again settles settles' (first.content k)] at told
    cases told

/-- A refresh that follows another, with nothing changed in between and no history, writes the same automatic regions
one version later and counts no changes.  It reports no issue of a manifest, and the project is configured as before. -/
theorem refresh_again (housed : Housed c t) (direct : c.manifestDir.Direct l) (range : now.inRange = true)
    (range' : now'.inRange = true) (first : (refresh c t history now kinds).result = .ok report)
    (second : (refresh c (refresh c t history now kinds).tree (fun _ => none) now' kinds).result = .ok report') :
    (∀ k ∈ kinds, ∃ d d', (store c).load (refresh c t history now kinds).tree k = .loaded d ∧
      (store c).load (refresh c (refresh c t history now kinds).tree (fun _ => none) now' kinds).tree k = .loaded d' ∧
      d'.auto.canonical = d.auto.canonical ∧ d'.metadata.version = d.metadata.version + 1 ∧ d'.metadata.changes = 0) ∧
    (∀ i ∈ report'.issues, i.topic = .extraction ∨ i.topic = .dependencies) ∧
    ScanContext.projectFile? (refresh c t history now kinds).tree c.rootPath = ScanContext.projectFile? t c.rootPath := by
  obtain rfl | filled : kinds = [] ∨ kinds ≠ [] := Classical.em _
  · cases first
    cases second
    exact ⟨nofun, nofun, rfl⟩
  · have written := written_of_refresh housed direct range filled first
    have written' := written_of_refresh written.housed direct range' filled second
    refine ⟨fun k listed => ?_, fun i member => written.issues_again written' member, written.project⟩
    obtain ⟨d, d', loaded, loaded', auto, version, changes⟩ := written.again written' listed
    exact ⟨d, d', loaded, loaded', congrArg AutoRegion.canonical auto, version, changes⟩

/-- One more refresh of the filled repository. -/
def sampleRefresh' : Run (Except RunError RefreshReport) :=
  refresh sampleContext sampleRefresh.tree (fun _ => none) ⟨60, 0⟩ [.techStack, .symbols]

/-- The first refresh follows the manifest with a note, and starts the one that could not be read anew. -/
theorem versions_sample {report : RefreshReport} (written : Written sampleContext filledTree (fun _ => none) ⟨0, 0⟩
      [.techStack, .symbols] [] sampleRefresh.tree report) :
    (∀ d, (store sampleContext).load sampleRefresh.tree .techStack = .loaded d →
      d.metadata.version = 5 ∧ (d.auto.keyIndex .techStack).map (·.count) = .ok 3) ∧
    ∀ d, (store sampleContext).load sampleRefresh.tree .symbols = .loaded d → d.metadata.version = 1 := by
  refine ⟨fun d loaded => ?_, fun d loaded => ?_⟩
  · have fourth : ((store sampleContext).load filledTree .techStack).document?.any
        (fun d => d.metadata.version = 4) = true := by decide +kernel
    obtain ⟨d₀, document, version⟩ := (Option.any_eq_true _ _).1 fourth
    obtain ⟨fresh, stands, index⟩ := written.loaded List.mem_cons_self
    rw [loaded, Prior.loaded.injEq] at stands
    rw [← stands] at index
    rw [Prior.document?_eq_some.1 document] at stands
    rw [index, stands, stored_loaded_version, of_decide_eq_true version]
    exact ⟨rfl, congrArg Except.ok count_filled⟩
  · have spoilt : backupOf ((store sampleContext).load filledTree .symbols) = some [0x21] := by decide +kernel
    obtain ⟨reason, corrupt, -⟩ := backupOf_eq_some spoilt
    obtain ⟨fresh, stands, -⟩ := written.loaded (List.mem_cons_of_mem _ List.mem_cons_self)
    rw [loaded, Prior.loaded.injEq, corrupt] at stands
    rw [stands]
    rfl

/-- Both manifests keep their regions in the second refresh, which counts no changes. -/
theorem refresh_again_sample :
    ∃ report', sampleRefresh'.result = .ok report' ∧
      (∀ i ∈ report'.issues, i.topic = .extraction ∨ i.topic = .dependencies) ∧
      (∃ d d', (store sampleContext).load sampleRefresh.tree .techStack = .loaded d ∧
        (store sampleContext).load sampleRefresh'.tree .techStack = .loaded d' ∧
        (d.auto.keyIndex .techStack).map (·.count) = .ok 3 ∧ d'.auto.canonical = d.auto.canonical ∧
        d.metadata.version = 5 ∧ d'.metadata.version = 6 ∧ d'.metadata.changes = 0) ∧
      ∃ d d', (store sampleContext).load sampleRefresh.tree .symbols = .loaded d ∧
        (store sampleContext).load sampleRefresh'.tree .symbols = .loaded d' ∧ d'.auto.canonical = d.auto.canonical ∧
        d.metadata.version = 1 ∧ d'.metadata.version = 2 ∧ d'.metadata.changes = 0 := by
  have kinds : [Kind.techStack, .symbols] ≠ [] := List.cons_ne_nil _ _
  obtain ⟨report, first, written⟩ := written_sample
  obtain ⟨fifth, new⟩ := versions_sample written
  rw [sampleRefresh] at first fifth new
  rw [sampleRefresh', sampleRefresh]
  obtain ⟨settled, -, second⟩ := (unhindered_of_ok (by decide) kinds first).exists_report kinds (fun _ => none) ⟨60, 0⟩
  obtain ⟨each, issues, -⟩ := refresh_again housed_filled direct_sample (by decide) (by decide) first second
  obtain ⟨d, d', loaded, loaded', region, version, changes⟩ := each .techStack List.mem_cons_self
  obtain ⟨e, e', loadedE, loadedE', regionE, versionE, changesE⟩ :=
    each .symbols (List.mem_cons_of_mem _ List.mem_cons_self)
  obtain ⟨five, count⟩ := fifth d loaded
  have one := new e loadedE
  rw [five] at version
  rw [one] at versionE
  exact ⟨_, second, issues, ⟨d, d', loaded, loaded', count, region, five, version, changes⟩,
    e, e', loadedE, loadedE', regionE, one, versionE, changesE⟩

end Run

end Gazetteer
