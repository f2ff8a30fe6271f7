import Gazetteer.Proofs.Registry.Fresh
import Gazetteer.Proofs.Upkeep.Failure

/-!
# Problems that a run goes on from

A refresh fails only where its directory cannot be made or a folder takes the place of a file that it writes
(`Run.Unhindered`).  Whatever else is wrong with the repository or its manifests (`Run.Problem`), the refresh writes
every manifest it was asked for and reports the problem (`Run.refresh_of_unhindered`).  Once it has, nothing stands in
the way of the next (`Run.unhindered_of_ok`).
-/

namespace Gazetteer

set_option autoImplicit false

/-! ## Complaints -/

namespace Declared

variable {t : FileTree} {root : Path}

/-- A file at a root is there and cannot be read with a parser, for a reason. -/
inductive Unreadable {α : Type} (t : FileTree) (root : Path) (file : String) (parse : String → Except String α) :
    String → Prop
  | text {e : FileError} (failed : t.readText (root.join file) = .error e) (there : e ≠ .notFound) :
      Unreadable t root file parse e.message
  | content {text reason : String} (read : t.readText (root.join file) = .ok text)
      (refused : parse text = .error reason) : Unreadable t root file parse reason

theorem mem_readWith {α : Type} {file : String} {parse : String → Except String α} {p : Complaint} :
    p ∈ (readWith t root file parse).2 ↔ ∃ reason, Unreadable t root file parse reason ∧ p = ⟨file, reason⟩ := by
  constructor
  · intro member
    unfold readWith at member
    split at member
    · cases member
    · rename_i e there failed
      exact ⟨_, .text failed there, List.mem_singleton.1 member⟩
    · rename_i text read
      split at member
      · cases member
      · rename_i reason refused
        exact ⟨reason, .content read refused, List.mem_singleton.1 member⟩
  · rintro ⟨reason, unreadable, rfl⟩
    cases unreadable with
    | @text e failed there =>
      unfold readWith
      rw [failed]
      cases e with
      | notFound => exact absurd rfl there
      | notFolder | isFolder | «exists» | notText => exact List.mem_singleton_self _
    | content read refused =>
      unfold readWith
      rw [read]
      dsimp only
      rw [refused]
      exact List.mem_singleton_self _

/-- A complaint is of the manifest of a package or of that of a Rust project. -/
theorem mem_complaints {p : Complaint} :
    p ∈ (read t root).complaints ↔
      (∃ reason, Unreadable t root Package.fileName Package.parse reason ∧ p = ⟨Package.fileName, reason⟩) ∨
      ∃ reason, Unreadable t root cargoFile (fun text => (Toml.parse text).mapError Toml.Place.fault) reason ∧
        p = ⟨cargoFile, reason⟩ := by
  have parts : (read t root).complaints = (readWith t root Package.fileName Package.parse).2 ++
      (readWith t root cargoFile fun text => (Toml.parse text).mapError Toml.Place.fault).2 := by
    unfold read
    rfl
  rw [parts, List.mem_append]
  exact or_congr mem_readWith mem_readWith

end Declared

/-! ## What a run goes on from -/

namespace Run

variable {c : ScanContext} {t : FileTree} {history : History} {now : Time.Instant} {kinds : List Kind}
  {analysis : Analysis} {l : Location}

/-- The directory is there or can be made, and no folder takes the place of a file that is written: that of a manifest,
of its view, or of the copy of a manifest that could not be read. -/
structure Unhindered (c : ScanContext) (t : FileTree) (kinds : List Kind) : Prop where
  directory : t.isFolder c.manifestDir = true ∨ c.manifestDir.text ≠ "" ∧ (t.makeFolders c.manifestDir).2 = .ok ()
  manifest : ∀ k ∈ kinds, (prepared c t).isFolder ((store c).path k) = false
  view : ∀ k ∈ kinds, ∀ p, (store c).markdownPath? k = some p → (prepared c t).isFolder p = false
  backup : ∀ k ∈ kinds, (backupOf ((store c).load t k)).isSome = true →
    (prepared c t).isFolder ((store c).backupPath k) = false

/-- What may be wrong with a repository and the manifests of some kinds, as it is reported: a folder that cannot be
looked into, a source file that cannot be extracted, a file of declared dependencies that cannot be read, and a manifest
that cannot be. -/
inductive Problem (c : ScanContext) (t : FileTree) (kinds : List Kind) : Issue → Prop
  | folder {i : ScanIssue} (met : i ∈ c.scanIssues t) : Problem c t kinds ⟨.scan, i.path, i.reason⟩
  | source {f : SourceFile} {e : ExtractError} (scanned : f ∈ c.scan t) (failed : f.extract c.imports = .error e) :
      Problem c t kinds ⟨.extraction, f.relative, e.message⟩
  | package {reason : String} (unreadable : Declared.Unreadable t c.rootPath Package.fileName Package.parse reason) :
      Problem c t kinds ⟨.dependencies, Package.fileName, reason⟩
  | cargo {reason : String} (unreadable : Declared.Unreadable t c.rootPath Declared.cargoFile
      (fun text => (Toml.parse text).mapError Toml.Place.fault) reason) :
      Problem c t kinds ⟨.dependencies, Declared.cargoFile, reason⟩
  | manifest {k : Kind} {reason : String} {raw : List UInt8} (listed : k ∈ kinds)
      (corrupt : (store c).load t k = .corrupt reason raw) :
      Problem c t kinds ⟨.corruptManifest, ((store c).path k).text, s!"rebuilt from scratch ({reason})" ++
        if raw.isEmpty then "" else s!"; previous content saved to {((store c).backupPath k).text}"⟩

/-! ## Nothing in the way -/

theorem Unhindered.prepares (unhindered : Unhindered c t kinds) : ((store c).prepare t).2 = .ok () := by
  rw [Store.prepare]
  split
  · rfl
  · rename_i absent
    exact (unhindered.directory.resolve_left absent).2

theorem Unhindered.folderAt (unhindered : Unhindered c t kinds) :
    ∃ l, (prepared c t).FolderAt c.manifestDir l := by
  rw [prepared, Store.prepare]
  split
  · rename_i here
    exact FileTree.folderAt_of_find (FileTree.isFolder_iff.1 here)
  · rename_i absent
    obtain ⟨filled, made⟩ := unhindered.directory.resolve_left absent
    exact FileTree.folderAt_of_makeFolders filled made

/-- Every manifest is settled. -/
theorem Unhindered.ready (unhindered : Unhindered c t kinds) (history : History) (now : Time.Instant) :
    ∃ settled, Ready c t history now ((store c).loadAll t kinds) settled := by
  obtain ⟨l, here⟩ := unhindered.folderAt
  have settles : ∀ found ∈ (store c).loadAll t kinds, ∃ s, settle c (prepared c t)
      (Analysis.make c t history ((store c).loadAll t kinds)) now found = .ok s := fun found _ =>
    exists_settle (FileTree.find_of_folderAt here) (Survey.fits_content c t found.1)
  obtain ⟨settled, each⟩ := Outcome.exists_each settles
  exact ⟨settled, unhindered.prepares, each⟩

/-- No folder takes the place of a file of the run. -/
theorem Unhindered.free (unhindered : Unhindered c t kinds) (here : (prepared c t).FolderAt c.manifestDir l) :
    (prepared c t).Free l (files c analysis now ((store c).loadAll t kinds)) := by
  intro f member folder
  obtain ⟨found, listed, inner⟩ := List.mem_flatMap.1 member
  obtain ⟨k, chosen, rfl⟩ := List.mem_map.1 listed
  have taken : (prepared c t).isFolder (c.manifestDir.join f.1) = true := by
    rw [FileTree.isFolder_iff, FileTree.find_join (Kind.isName_of_mem_names (mem_names_of_mem_planned inner)) here,
      folder]
  obtain own | view | ⟨copy, backup⟩ := name_of_mem_planned inner
  · rw [own] at taken
    exact Bool.eq_false_iff.1 (unhindered.manifest k chosen) taken
  · refine Bool.eq_false_iff.1 (unhindered.view k chosen _ ?_) taken
    rw [Store.markdownPath?, view]
    rfl
  · rw [copy] at taken
    exact Bool.eq_false_iff.1 (unhindered.backup k chosen backup) taken

/-- A refresh that nothing stands in the way of succeeds. -/
theorem Unhindered.exists_report (unhindered : Unhindered c t kinds) (filled : kinds ≠ []) (history : History)
    (now : Time.Instant) :
    ∃ settled, Ready c t history now ((store c).loadAll t kinds) settled ∧
      (refresh c t history now kinds).result =
        .ok (reportOf (Analysis.make c t history ((store c).loadAll t kinds)) [] settled) := by
  obtain ⟨settled, ready⟩ := unhindered.ready history now
  obtain ⟨l, here⟩ := unhindered.folderAt
  have result := (write_of_ready [] (loadAll_ne_nil filled) ready here).2
  rw [if_pos (unhindered.free here)] at result
  exact ⟨settled, ready, result⟩

/-! ## Once a refresh has gone through -/

/-- No folder takes the place of a file that was written. -/
theorem isFolder_written (here : (prepared c t).FolderAt c.manifestDir l)
    (free : (prepared c t).Free l (files c analysis now ((store c).loadAll t kinds))) {f : String × List UInt8}
    (member : f ∈ files c analysis now ((store c).loadAll t kinds)) :
    ((prepared c t).writeFiles l (files c analysis now ((store c).loadAll t kinds))).isFolder
      (c.manifestDir.join f.1) = false := by
  have there := here.of_keeps (FileTree.keeps_writeFiles free)
  refine Bool.eq_false_iff.2 fun folder => ?_
  rw [FileTree.isFolder_iff, FileTree.find_join (isName_of_mem_files f member) there,
    FileTree.get?_writeFiles_of_mem (agree_of_lead List.prefix_rfl) member] at folder
  cases folder

/-- Nothing stands in the way of a refresh that follows another. -/
theorem unhindered_of_ok {report : RefreshReport} (range : now.inRange = true) (filled : kinds ≠ [])
    (done : (refresh c t history now kinds).result = .ok report) :
    Unhindered c (refresh c t history now kinds).tree kinds := by
  obtain ⟨settled, l, ready, here, free, tree, -⟩ := ready_of_ok (loadAll_ne_nil filled) done
  have there := here.of_keeps (FileTree.keeps_writeFiles free)
  have each := settles_each ready.each
  rw [refresh, tree]
  refine ⟨.inl (FileTree.isFolder_iff.2 (FileTree.find_of_folderAt there)), fun k listed => ?_,
    fun k listed p shown => ?_, fun k listed backup => ?_⟩
  · obtain ⟨s, -, fresh, settles⟩ := Outcome.exists_of_mem_left each listed
    have manifest := isFolder_written here free (manifest_mem_files settles listed)
    rw [prepared_of_folderAt there]
    exact manifest
  · obtain ⟨s, -, fresh, settles⟩ := Outcome.exists_of_mem_left each listed
    obtain ⟨name, has, rfl⟩ := Option.map_eq_some_iff.1 shown
    obtain ⟨bytes, inner⟩ := settles.view_mem_planned has
    have view := isFolder_written here free (List.mem_flatMap.2 ⟨_, List.mem_map_of_mem listed, inner⟩)
    rw [prepared_of_folderAt there]
    exact view
  · -- a manifest that was written is loaded, so there is nothing to copy
    obtain ⟨s, -, fresh, settles⟩ := Outcome.exists_of_mem_left each listed
    rw [load_written here free settles listed range] at backup
    cases backup

/-! ## What is reported -/

theorem problem_of_mem_surveyIssues {i : Issue} (member : i ∈ surveyIssues (Survey.take c t)) :
    Problem c t kinds i := by
  obtain front | dependencies := List.mem_append.1 member
  · obtain scan | extraction := List.mem_append.1 front
    · obtain ⟨issue, met, rfl⟩ := List.mem_map.1 scan
      exact .folder met
    · obtain ⟨p, complaint, rfl⟩ := List.mem_map.1 extraction
      obtain ⟨f, scanned, e, failed, rfl⟩ := Extracts.mem_complaints.1 complaint
      exact .source scanned failed
  · obtain ⟨p, complaint, rfl⟩ := List.mem_map.1 dependencies
    change p ∈ (Declared.read t c.rootPath).complaints at complaint
    obtain ⟨reason, unreadable, rfl⟩ | ⟨reason, unreadable, rfl⟩ := Declared.mem_complaints.1 complaint
    · exact .package unreadable
    · exact .cargo unreadable

theorem scan_mem {i : ScanIssue} (met : i ∈ c.scanIssues t) :
    ⟨.scan, i.path, i.reason⟩ ∈ surveyIssues (Survey.take c t) :=
  List.mem_append_left _ (List.mem_append_left _
    (List.mem_map_of_mem (f := fun i : ScanIssue => (⟨.scan, i.path, i.reason⟩ : Issue)) met))

theorem extraction_mem {f : SourceFile} {e : ExtractError} (scanned : f ∈ c.scan t)
    (failed : f.extract c.imports = .error e) :
    ⟨.extraction, f.relative, e.message⟩ ∈ surveyIssues (Survey.take c t) :=
  List.mem_append_left _ (List.mem_append_right _
    (List.mem_map_of_mem (f := fun p : Complaint => (⟨.extraction, p.file, p.reason⟩ : Issue))
      (Extracts.mem_complaints.2 ⟨f, scanned, e, failed, rfl⟩)))

theorem dependencies_mem {file reason : String} (told : ⟨file, reason⟩ ∈ (Declared.read t c.rootPath).complaints) :
    ⟨.dependencies, file, reason⟩ ∈ surveyIssues (Survey.take c t) :=
  List.mem_append_right _
    (List.mem_map_of_mem (f := fun p : Complaint => (⟨.dependencies, p.file, p.reason⟩ : Issue)) told)

section Settled

variable {tree : FileTree} {k : Kind} {reason : String} {raw : List UInt8} {fresh : AutoRegion} {s : Settled}
  {i : Issue}

theorem rebuiltIssue_corrupt : rebuiltIssue (store c) (k, .corrupt reason raw)
      (next c analysis now (k, .corrupt reason raw) fresh) =
    [⟨.corruptManifest, ((store c).path k).text, s!"rebuilt from scratch ({reason})" ++
      if raw.isEmpty then "" else s!"; previous content saved to {((store c).backupPath k).text}"⟩] := by
  cases raw <;> rfl

theorem topic_of_mem_ignoredIssue {found : Found} (member : i ∈ ignoredIssue found) : i.topic = .ignoredKeys := by
  unfold ignoredIssue at member
  split at member
  · split at member
    · cases member
    · rw [List.mem_singleton.1 member]
  · cases member

theorem topic_of_mem_droppedIssue {outcome : MergeOutcome} (member : i ∈ droppedIssue k outcome) :
    i.topic = .droppedKeys := by
  unfold droppedIssue at member
  split at member
  · cases member
  · rw [List.mem_singleton.1 member]

/-- What is reported of a manifest is that it could not be read, or which of its keys are not kept. -/
theorem problem_of_mem_issues (settles : Settles c tree analysis now (k, (store c).load t k) fresh s)
    (listed : k ∈ kinds) (member : i ∈ s.issues) :
    Problem c t kinds i ∨ i.topic = .droppedKeys ∨ i.topic = .ignoredKeys := by
  rw [settles.issues] at member
  obtain front | dropped := List.mem_append.1 member
  · obtain rebuilt | ignored := List.mem_append.1 front
    · cases found : (store c).load t k with
      | missing =>
        rw [found] at rebuilt
        cases rebuilt
      | loaded d =>
        rw [found] at rebuilt
        cases rebuilt
      | corrupt reason raw =>
        rw [found, rebuiltIssue_corrupt] at rebuilt
        rw [List.mem_singleton.1 rebuilt]
        exact .inl (.manifest listed found)
    · exact .inr (.inr (topic_of_mem_ignoredIssue ignored))
  · exact .inr (.inl (topic_of_mem_droppedIssue dropped))

end Settled

/-- A report tells every problem, and besides problems only of keys that are not kept. -/
structure Tells (c : ScanContext) (t : FileTree) (kinds : List Kind) (report : RefreshReport) : Prop where
  problems : ∀ i, Problem c t kinds i → i ∈ report.issues
  rest : ∀ i ∈ report.issues, Problem c t kinds i ∨ i.topic = .droppedKeys ∨ i.topic = .ignoredKeys

theorem Ready.tells {skipped : List Kind} {settled : List Settled}
    (ready : Ready c t history now ((store c).loadAll t kinds) settled) :
    Tells c t kinds (reportOf (Analysis.make c t history ((store c).loadAll t kinds)) skipped settled) := by
  refine ⟨fun i problem => ?_, fun i member => ?_⟩
  · cases problem with
    | folder met => exact List.mem_append_left _ (scan_mem met)
    | source scanned failed => exact List.mem_append_left _ (extraction_mem scanned failed)
    | package unreadable =>
      exact List.mem_append_left _ (dependencies_mem (Declared.mem_complaints.2 (.inl ⟨_, unreadable, rfl⟩)))
    | cargo unreadable =>
      exact List.mem_append_left _ (dependencies_mem (Declared.mem_complaints.2 (.inr ⟨_, unreadable, rfl⟩)))
    | @manifest k reason raw listed corrupt =>
      obtain ⟨s, member, fresh, settles⟩ := Outcome.exists_of_mem_left (settles_each ready.each) listed
      refine List.mem_append_right _ (List.mem_flatMap.2 ⟨s, member, ?_⟩)
      rw [corrupt] at settles
      rw [settles.issues, rebuiltIssue_corrupt]
      exact List.mem_append_left _ (List.mem_append_left _ (List.mem_singleton_self _))
  · obtain survey | own := List.mem_append.1 member
    · exact .inl (problem_of_mem_surveyIssues survey)
    · obtain ⟨s, settled, told⟩ := List.mem_flatMap.1 own
      obtain ⟨k, chosen, fresh, settles⟩ := Outcome.exists_of_mem_right (settles_each ready.each) settled
      exact problem_of_mem_issues settles chosen told

/-- Whatever the files of a repository and its manifests hold, a refresh that nothing stands in the way of succeeds. It
updates every kind it was asked for, and reports every problem it went on from. -/
theorem refresh_of_unhindered (unhindered : Unhindered c t kinds) (filled : kinds ≠ []) (history : History)
    (now : Time.Instant) :
    ∃ report, (refresh c t history now kinds).result = .ok report ∧ report.updated.map (·.kind) = kinds ∧
      Tells c t kinds report := by
  obtain ⟨settled, ready, result⟩ := unhindered.exists_report filled history now
  exact ⟨_, result, updated_kinds [] (settles_each ready.each), ready.tells⟩

/-- The sample repository with a source file that is no text, dependencies that cannot be read and a manifest that
cannot be. -/
def troubledTree : FileTree :=
  (((sampleTree.put ["r", "a.ts"] (.file [0xff])).put ["r", "package.json"] (.file [0x5b])).put ["r", "Cargo.toml"]
    (.file [0x3d])).put ["r", ".cartograph", "imports.json"] (.file [0x21])

theorem unhindered_troubled : Unhindered sampleContext troubledTree [.imports, .symbols] := by
  have views : ∀ k ∈ [Kind.imports, .symbols], ∀ p ∈ (store sampleContext).markdownPath? k,
      (prepared sampleContext troubledTree).isFolder p = false := by decide +kernel
  exact ⟨.inl (by decide +kernel), by decide +kernel, views, by decide +kernel⟩

theorem unhindered_filled : Unhindered sampleContext filledTree [.techStack, .symbols] := by
  have views : ∀ k ∈ [Kind.techStack, .symbols], ∀ p ∈ (store sampleContext).markdownPath? k,
      (prepared sampleContext filledTree).isFolder p = false := by decide +kernel
  have backups : ∀ k ∈ [Kind.techStack, .symbols],
      (prepared sampleContext filledTree).isFolder ((store sampleContext).backupPath k) = false := by decide +kernel
  exact ⟨.inl (by decide +kernel), by decide +kernel, views, fun k listed _ => backups k listed⟩

/-- A refresh of a repository in which no file can be read. -/
theorem refresh_of_unhindered_troubled :
    Unhindered sampleContext troubledTree [.imports, .symbols] ∧ [Kind.imports, .symbols] ≠ [] ∧
      ∃ report, (refresh sampleContext troubledTree (fun _ => none) ⟨0, 0⟩ [.imports, .symbols]).result = .ok report ∧
        report.updated.map (·.kind) = [.imports, .symbols] ∧
        ⟨.extraction, "a.ts", "file is not valid UTF-8"⟩ ∈ report.issues ∧
        (∃ reason, ⟨.dependencies, "package.json", reason⟩ ∈ report.issues) ∧
        (∃ reason, ⟨.dependencies, "Cargo.toml", reason⟩ ∈ report.issues) ∧
        ∃ detail, ⟨.corruptManifest, "/r/.cartograph/imports.json", detail⟩ ∈ report.issues := by
  have filled : [Kind.imports, .symbols] ≠ [] := List.cons_ne_nil _ _
  obtain ⟨report, done, kinds, tells⟩ := refresh_of_unhindered unhindered_troubled filled (fun _ => none) ⟨0, 0⟩
  have source : (⟨["a.ts"], [0xff]⟩ : SourceFile) ∈ sampleContext.scan troubledTree := by decide +kernel
  have package : troubledTree.readText (sampleContext.rootPath.join Package.fileName) = .ok "[" := by decide +kernel
  have cargo : troubledTree.readText (sampleContext.rootPath.join Declared.cargoFile) = .ok "=" := by decide +kernel
  have manifest : troubledTree.read ((store sampleContext).path .imports) = .ok [0x21] := by decide +kernel
  have spoilt : backupOf ((store sampleContext).load troubledTree .imports) = some [0x21] := by
    rw [Store.load_of_read manifest]
    decide +kernel
  obtain ⟨reason, refused⟩ := Outcome.exists_of_not_isOk (by decide +kernel : (Package.parse "[").isOk = false)
  obtain ⟨reason', refused'⟩ := Outcome.exists_of_not_isOk
    (by decide +kernel : ((Toml.parse "=").mapError Toml.Place.fault).isOk = false)
  obtain ⟨reason'', corrupt, -⟩ := backupOf_eq_some spoilt
  refine ⟨unhindered_troubled, filled, report, done, kinds, ?_, ?_, ?_, ?_⟩
  · exact tells.problems _ (.source source (e := .notUtf8) (by decide +kernel))
  · exact ⟨reason, tells.problems _ (.package (.content package refused))⟩
  · exact ⟨reason', tells.problems _ (.cargo (.content cargo refused'))⟩
  · exact ⟨_, tells.problems _ (.manifest List.mem_cons_self corrupt)⟩

end Run

end Gazetteer
