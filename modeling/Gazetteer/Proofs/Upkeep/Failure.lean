import Gazetteer.Proofs.Upkeep.Write

/-!
# What a failed run leaves

A run that fails has changed a file exactly if it had replaced one with other bytes before it came to a place that a
folder takes (`Run.sameFiles_iff_harmless`).  In a directory that an absolute path of names leads to, that is so unless
the very first place is taken (`Run.harmless_iff_blocked`): the next version of a manifest never has the bytes of the
one before it (`Run.ne_written`).
-/

namespace Gazetteer

set_option autoImplicit false

namespace Store

variable {s : Store} {t : FileTree} {k : Kind}

theorem raw_of_priorOf {bytes raw : List UInt8} {reason : String} (corrupt : priorOf bytes = .corrupt reason raw) :
    raw = bytes := by
  unfold priorOf at corrupt
  split at corrupt
  · cases corrupt
    rfl
  · split at corrupt
    · cases corrupt
    · cases corrupt
      rfl

/-- Bytes that are no manifest were read from a file. -/
theorem file_of_corrupt {raw : List UInt8} {reason : String} (found : s.load t k = .corrupt reason raw)
    (some : raw ≠ []) :
    ∃ l, t.FolderAt s.dir l ∧ t.get? (l ++ [k.fileName]) = .some (.file raw) ∧ priorOf raw = .corrupt reason raw := by
  obtain ⟨l, bytes, here, below, read⟩ | missing | ⟨other, corrupt⟩ := s.load_cases t k
  · rw [read] at found
    cases raw_of_priorOf found
    exact ⟨l, here, below, found⟩
  · cases missing ▸ found
  · cases corrupt ▸ found
    exact absurd rfl some

end Store

namespace Run

variable {c : ScanContext} {t : FileTree} {history : History} {now : Time.Instant} {found : List Found}
  {skipped kinds : List Kind} {analysis : Analysis} {l : Location}

/-- Whatever is written before the first place that a folder takes is there already. -/
def Harmless (c : ScanContext) (t : FileTree) (history : History) (now : Time.Instant) (found : List Found) : Prop :=
  ∀ settled l, Ready c t history now found settled → (prepared c t).FolderAt c.manifestDir l →
    ∀ f ∈ (prepared c t).unblocked l (files c (Analysis.make c t history found) now found),
      (prepared c t).get? (l ++ [f.1]) = some (.file f.2)

/-- A folder takes the first place of all. -/
def Blocked (c : ScanContext) (t : FileTree) (history : History) (now : Time.Instant) (found : List Found) : Prop :=
  ∀ settled l, Ready c t history now found settled → (prepared c t).FolderAt c.manifestDir l →
    ∃ f rest, files c (Analysis.make c t history found) now found = f :: rest ∧
      (prepared c t).get? (l ++ [f.1]) = some .folder

/-- Writing files changes none exactly if all held the bytes before. -/
theorem sameFiles_writeFiles {tree : FileTree} {written : List (String × List UInt8)}
    (agree : ∀ f ∈ written, ∀ g ∈ written, f.1 = g.1 → f.2 = g.2) :
    tree.SameFiles (tree.writeFiles l written) ↔ ∀ f ∈ written, tree.get? (l ++ [f.1]) = some (.file f.2) := by
  constructor
  · intro same f member
    exact (same _ _).1 (FileTree.get?_writeFiles_of_mem agree member)
  · intro held m bytes
    by_cases there : ∃ f ∈ written, m = l ++ [f.1]
    · obtain ⟨f, member, rfl⟩ := there
      rw [FileTree.get?_writeFiles_of_mem agree member, held f member]
    · rw [FileTree.get?_writeFiles_of_not_mem fun f member same => there ⟨f, member, same⟩]

/-- A run that fails leaves all files as they were exactly if it did no harm before. -/
theorem sameFiles_iff_harmless {e : RunError}
    (failed : (write c t history now ((store c).loadAll t kinds) skipped).result = .error e) :
    t.SameFiles (write c t history now ((store c).loadAll t kinds) skipped).tree ↔
      Harmless c t history now ((store c).loadAll t kinds) := by
  have filled : (store c).loadAll t kinds ≠ [] := by
    intro none
    rw [none] at failed
    cases failed
  by_cases ready : ∃ settled, Ready c t history now ((store c).loadAll t kinds) settled
  · obtain ⟨settled, ready⟩ := ready
    obtain ⟨l, here⟩ := ready.folderAt filled
    obtain ⟨tree, -⟩ := write_of_ready skipped filled ready here
    have before (t' : FileTree) : t.SameFiles t' ↔ (prepared c t).SameFiles t' :=
      forall₂_congr fun m bytes => by rw [sameFiles_prepared c t m bytes]
    rw [tree, before, sameFiles_writeFiles (agree_of_lead (FileTree.unblocked_prefix _ l _))]
    refine ⟨fun held _ l' _ there => ?_, fun harmless => harmless settled l ready here⟩
    rw [there.unique here]
    exact held
  · obtain ⟨tree, -⟩ := write_of_stuck skipped filled (not_exists.1 ready)
    rw [tree]
    exact ⟨fun _ settled _ settles _ => absurd ⟨settled, settles⟩ ready, fun _ => sameFiles_prepared c t⟩

/-! ## The first file -/

/-- What is written for a manifest is never what was there. -/
theorem ne_written {k : Kind} {fresh : AutoRegion} {s : Settled} {bytes : List UInt8} (range : now.inRange = true)
    (settles : Settles c (prepared c t) analysis now (k, (store c).load t k) fresh s)
    (was : (store c).load t k = Store.priorOf bytes) :
    bytes ≠ Text.Utf8.encode (next c analysis now (k, (store c).load t k) fresh).document.text := by
  intro same
  have sound := sound_next settles range
  have loaded : (store c).load t k = .loaded (stored c analysis now (k, (store c).load t k) fresh) :=
    was.trans (by rw [same]; exact Document.priorOf_encode_text sound)
  have version : (next c analysis now (k, (store c).load t k) fresh).document.metadata.version =
      (next c analysis now (k, (store c).load t k) fresh).document.metadata.version + 1 := by
    conv_lhs => rw [next, loaded]
    rfl
  have zero : (1 : UInt64) = 0 := by
    have shifted := version.symm.trans (UInt64.add_zero _).symm
    exact (UInt64.add_right_inj _).1 shifted
  exact absurd zero (by decide)

theorem backupOf_eq_some {prior : Prior} {raw : List UInt8} (backup : backupOf prior = some raw) :
    ∃ reason, prior = .corrupt reason raw ∧ raw ≠ [] := by
  cases prior with
  | missing => cases backup
  | loaded d => cases backup
  | corrupt reason bytes =>
    rw [backupOf] at backup
    split at backup
    · cases backup
    · rename_i filled
      cases backup
      exact ⟨reason, rfl, fun none => filled (List.isEmpty_iff.2 none)⟩

/-- The first files of a run: the backup of the first manifest, if there is one, and the manifest. -/
theorem files_of_settles {k : Kind} {fresh : AutoRegion} {s : Settled} {tree : FileTree}
    (settles : Settles c tree analysis now (k, (store c).load t k) fresh s) :
    ∃ rest, files c analysis now ((store c).loadAll t (k :: kinds)) =
      ((backupOf ((store c).load t k)).map fun bytes => (k.fileName ++ ".corrupt", bytes)).toList ++
        (k.fileName, Text.Utf8.encode (next c analysis now (k, (store c).load t k) fresh).document.text) :: rest := by
  obtain ⟨markdown, plan⟩ := settles.markdown
  have split : files c analysis now ((store c).loadAll t (k :: kinds)) =
      planned c analysis now (k, (store c).load t k) ++ files c analysis now ((store c).loadAll t kinds) := rfl
  refine ⟨(k.markdownName?.bind fun name => markdown.map fun text => (name, Text.Utf8.encode text)).toList ++
    files c analysis now ((store c).loadAll t kinds), ?_⟩
  rw [split, plan, Store.filesOf, List.append_assoc, List.append_assoc]
  rfl

/-- In a directory that an absolute path of names leads to, a run does no harm only if it is stopped before anything. -/
theorem harmless_iff_blocked {names : Location} (valid : t.Valid) (direct : c.manifestDir.Direct names)
    (range : now.inRange = true) (filled : kinds ≠ []) :
    Harmless c t history now ((store c).loadAll t kinds) ↔ Blocked c t history now ((store c).loadAll t kinds) := by
  constructor
  · intro harmless settled l ready here
    obtain ⟨k, kinds, rfl⟩ := List.exists_cons_of_ne_nil filled
    obtain ⟨s, -, fresh, settles⟩ := Outcome.exists_of_mem_left (settles_each ready.each) List.mem_cons_self
    have written := harmless settled l ready here
    -- a manifest that is in place was found there, and is not what follows it
    have other {bytes : List UInt8} (below : (prepared c t).get? (l ++ [k.fileName]) = some (.file bytes)) :
        bytes ≠ Text.Utf8.encode (next c (Analysis.make c t history ((store c).loadAll t (k :: kinds))) now
          (k, (store c).load t k) fresh).document.text := by
      have old : t.get? (l ++ [k.fileName]) = some (.file bytes) := (sameFiles_prepared c t _ _).1 below
      have location : l = names := FileTree.location_of_direct direct here
      have there : t.FolderAt (store c).dir l := valid.folderAt (location ▸ direct) (valid.parent l _ _ old)
      refine ne_written range settles ?_
      rw [Store.load_eq there, old]
    obtain ⟨rest, all⟩ := files_of_settles settles
    rw [all] at written ⊢
    cases backup : backupOf ((store c).load t k) with
    | none =>
      rw [backup] at written
      refine ⟨_, _, rfl, Classical.not_not.1 fun free => ?_⟩
      refine other (written (k.fileName, _) ?_) rfl
      rw [Option.map_none, Option.toList_none, List.nil_append, FileTree.unblocked_cons free]
      exact List.mem_cons_self
    | some raw =>
      rw [backup] at written
      refine ⟨_, _, rfl, Classical.not_not.1 fun free => ?_⟩
      obtain ⟨reason, corrupt, filled⟩ := backupOf_eq_some backup
      obtain ⟨l', there, below, -⟩ := Store.file_of_corrupt corrupt filled
      -- the manifest that could not be read is a file, so no folder takes its place
      have same : prepared c t = t := prepared_of_folderAt there
      have manifest : (prepared c t).get? (l ++ [k.fileName]) ≠ some .folder := by
        rw [same] at here ⊢
        rw [here.unique there, below]
        intro same
        cases same
      refine other (written (k.fileName, _) ?_) rfl
      rw [Option.map_some, Option.toList_some, List.singleton_append, FileTree.unblocked_cons free,
        FileTree.unblocked_cons manifest]
      exact List.mem_cons_of_mem _ List.mem_cons_self
  · intro blocked settled l ready here f member
    obtain ⟨first, rest, all, folder⟩ := blocked settled l ready here
    rw [all, FileTree.unblocked_cons_of_folder folder] at member
    cases member

/-! ## Both runs that write -/

/-- A refresh of some kinds, or a run that creates the manifests that are absent, which are these kinds. -/
def Writes (c : ScanContext) (t : FileTree) (history : History) (now : Time.Instant) (kinds : List Kind)
    (run : Run (Except RunError RefreshReport)) : Prop :=
  run = refresh c t history now kinds ∨ kinds = absent c t ∧ run = create c t history now

theorem Writes.eq_write {run : Run (Except RunError RefreshReport)} (writes : Writes c t history now kinds run) :
    ∃ skipped, run = write c t history now ((store c).loadAll t kinds) skipped := by
  obtain rfl | ⟨rfl, rfl⟩ := writes
  · exact ⟨[], rfl⟩
  · exact ⟨present c t, create_eq c t history now⟩

/-- A run that fails leaves the files alone exactly if it had written nothing new by then.  In a valid tree, with a
directory that an absolute path of names leads to, that is so exactly if it was stopped before anything: nothing was
ready, or a folder takes the place of the very first file. -/
theorem sameFiles_of_failed {run : Run (Except RunError RefreshReport)} {e : RunError}
    (writes : Writes c t history now kinds run) (failed : run.result = .error e) :
    (t.SameFiles run.tree ↔ Harmless c t history now ((store c).loadAll t kinds)) ∧
      (t.Valid → (∃ names, c.manifestDir.Direct names) → now.inRange = true →
        (t.SameFiles run.tree ↔ Blocked c t history now ((store c).loadAll t kinds))) := by
  obtain ⟨skipped, rfl⟩ := writes.eq_write
  have filled : kinds ≠ [] := by
    rintro rfl
    cases failed
  refine ⟨sameFiles_iff_harmless failed, ?_⟩
  rintro valid ⟨names, direct⟩ range
  rw [sameFiles_iff_harmless failed]
  exact harmless_iff_blocked valid direct range filled

/-- The sample repository with a folder where a manifest belongs. -/
def blockedTree : FileTree := sampleTree.put ["r", ".cartograph", "exports.json"] .folder

/-- A refresh that comes to the folder fails, and has written another manifest by then. -/
theorem sameFiles_of_failed_blocked :
    ∃ e, (refresh sampleContext blockedTree (fun _ => none) ⟨0, 0⟩ [.imports, .exports]).result = .error e ∧
      ¬blockedTree.SameFiles (refresh sampleContext blockedTree (fun _ => none) ⟨0, 0⟩ [.imports, .exports]).tree ∧
      ¬Harmless sampleContext blockedTree (fun _ => none) ⟨0, 0⟩
        ((store sampleContext).loadAll blockedTree [.imports, .exports]) := by
  have stopped : (refresh sampleContext blockedTree (fun _ => none) ⟨0, 0⟩ [.imports, .exports]).result.isOk = false := by
    decide +kernel
  have written : ((refresh sampleContext blockedTree (fun _ => none) ⟨0, 0⟩ [.imports, .exports]).tree.get?
      ["r", ".cartograph", "imports.json"]).any (· ≠ .folder) = true := by decide +kernel
  obtain ⟨e, failed⟩ := Outcome.exists_of_not_isOk stopped
  have changed : ¬blockedTree.SameFiles
      (refresh sampleContext blockedTree (fun _ => none) ⟨0, 0⟩ [.imports, .exports]).tree := by
    intro same
    obtain ⟨entry, held, other⟩ := (Option.any_eq_true _ _).1 written
    cases entry with
    | folder => exact absurd rfl (of_decide_eq_true other)
    | file bytes =>
      have before : blockedTree.get? ["r", ".cartograph", "imports.json"] = none := by decide
      rw [same, before] at held
      cases held
  have harm := (sameFiles_of_failed (.inl rfl) failed).1
  exact ⟨e, failed, changed, fun harmless => changed (harm.2 harmless)⟩

end Run

end Gazetteer
