import Gazetteer.Proofs.Files.Barred
import Gazetteer.Proofs.Upkeep.Write

/-!
# What is created

Creating writes the kinds of which nothing is found (`Run.mem_absent`), and goes by how the reading of a manifest
failed.  Behind a file that is in the way of the directory reading fails otherwise than for want of a manifest, so
there all kinds count as present and nothing is done (`Run.create_of_found`), although the directory cannot be made
(`Store.exists_prepare_error`).  In any other tree a run that succeeds leaves something in the place of every manifest
(`Run.find_of_created`).
-/

namespace Gazetteer

set_option autoImplicit false

theorem Prior.isPresent_eq_false_iff {prior : Prior} : prior.isPresent = false ↔ prior = .missing := by
  cases prior <;> simp [isPresent]

namespace Store

variable {s : Store} {t : FileTree} {k : Kind}

/-! ## When a manifest counts as present -/

/-- Unless a file is in the way of the directory, what is not missing is there. -/
theorem exists_find_iff (clear : ¬t.Barred s.dir) :
    (∃ e, t.find (s.path k) = .ok e) ↔ t.read (s.path k) ≠ .error .notFound := by
  rw [ne_eq, FileTree.read_eq_notFound_iff]
  cases found : t.find (s.path k) with
  | ok e => exact ⟨fun _ => nofun, fun _ => ⟨e, rfl⟩⟩
  | error e =>
    obtain rfl | rfl := FileTree.find_eq_error found
    · exact ⟨nofun, fun there => absurd rfl there⟩
    · exact absurd ((FileTree.find_join_eq_notFolder_iff k.isName_fileName).1 found) clear

/-- The directory cannot be made where a file is in its way. -/
theorem exists_prepare_error (barred : t.Barred s.dir) (filled : s.dir.text ≠ "") :
    ∃ e, (s.prepare t).2 = .error e := by
  have away : ¬t.isFolder s.dir = true := fun here => by
    obtain ⟨l, here⟩ := FileTree.folderAt_of_find (FileTree.isFolder_iff.1 here)
    exact FileTree.not_folderAt_of_barred barred here
  rw [prepare, if_neg away]
  cases done : (t.makeFolders s.dir).2 with
  | error e => exact ⟨e, rfl⟩
  | ok =>
    obtain ⟨l, here⟩ := FileTree.folderAt_of_makeFolders filled done
    exact absurd here (FileTree.not_folderAt_of_barred (barred.of_grows (FileTree.grows_makeFolders t s.dir)))

end Store

namespace Run

variable {c : ScanContext} {t : FileTree} {history : History} {now : Time.Instant} {found : List Found}
  {skipped : List Kind} {k : Kind}

/-! ## Runs that write nothing -/

theorem mem_absent : k ∈ absent c t ↔ t.read ((store c).path k) = .error .notFound := by
  rw [absent, List.mem_filter, Bool.not_eq_true', Prior.isPresent_eq_false_iff, Store.load_eq_missing_iff]
  exact and_iff_right k.mem_all

/-- Where something is found for every kind, nothing is done. -/
theorem create_of_found (there : ∀ k, t.read ((store c).path k) ≠ .error .notFound) (history : History)
    (now : Time.Instant) : create c t history now = ⟨t, .persisted, none, .ok { skipped := Kind.all }⟩ := by
  have none : absent c t = [] := List.eq_nil_iff_forall_not_mem.2 fun k member => there k (mem_absent.1 member)
  have all : present c t = Kind.all := by
    refine List.filter_eq_self.2 fun k _ => eq_true_of_ne_false fun missing => ?_
    exact there k (Store.load_eq_missing_iff.1 (Prior.isPresent_eq_false_iff.1 missing))
  rw [create_eq, none, all]
  rfl

theorem create_of_barred (barred : t.Barred c.manifestDir) (history : History) (now : Time.Instant) :
    create c t history now = ⟨t, .persisted, none, .ok { skipped := Kind.all }⟩ := by
  refine create_of_found (fun k missing => ?_) history now
  cases missing.symm.trans (FileTree.read_join_of_barred barred k.isName_fileName)

/-- A run that has something to write fails where its directory cannot be made. -/
theorem write_of_unprepared {e : FileError} (filled : found ≠ []) (failed : ((store c).prepare t).2 = .error e) :
    (write c t history now found skipped).result = .error (.manifestDir c.manifestDir e) := by
  have place : (store c).prepare t = (prepared c t, .error e) := Prod.ext rfl failed
  rw [write_eq filled, persist, place]

/-- Where the directory cannot be made and no file is in the way, all manifests are missing. -/
theorem absent_of_unprepared {e : FileError} (clear : ¬t.Barred c.manifestDir)
    (failed : ((store c).prepare t).2 = .error e) (k : Kind) : k ∈ absent c t := by
  refine mem_absent.2 (FileTree.read_join_of_away (fun l here => ?_) clear k.isName_fileName)
  rw [Store.prepare_of_folderAt here] at failed
  cases failed

/-! ## Runs that succeed -/

/-- A run makes folders and writes files; nothing that was there is gone. -/
theorem keeps_write (c : ScanContext) (t : FileTree) (history : History) (now : Time.Instant) (found : List Found)
    (skipped : List Kind) : t.Keeps (write c t history now found skipped).tree := by
  obtain grows | ⟨l, written, -, free, -, tree⟩ := write_tree c t history now found skipped
  · exact grows.keeps
  · rw [tree]
    exact (Store.grows_prepare (store c) t).keeps.trans (FileTree.keeps_writeFiles free)

/-- Unless a file was in the way, creating that succeeds leaves something in the place of every manifest. -/
theorem find_of_created {report : RefreshReport} (clear : ¬t.Barred c.manifestDir)
    (done : (create c t history now).result = .ok report) (k : Kind) :
    ∃ e, (create c t history now).tree.find ((store c).path k) = .ok e := by
  rw [create_eq] at done ⊢
  by_cases missing : t.read ((store c).path k) = .error .notFound
  · have listed : k ∈ absent c t := mem_absent.2 missing
    obtain ⟨settled, l, ready, here, free, tree, -⟩ := ready_of_ok (loadAll_ne_nil (List.ne_nil_of_mem listed)) done
    obtain ⟨s, -, fresh, settles⟩ := Outcome.exists_of_mem_left (settles_each ready.each) listed
    have after := here.of_keeps (FileTree.keeps_writeFiles free)
    rw [tree, Store.find_eq (s := store c) after, get?_written settles listed]
    exact ⟨_, rfl⟩
  · obtain ⟨e, there⟩ := (Store.exists_find_iff (s := store c) clear).2 missing
    exact FileTree.exists_find_of_keeps (keeps_write c t history now _ _) there

/-- Creating that succeeds leaves something in the place of every manifest exactly if no file is in the way of the
directory.  If one is, then the directory cannot be made, and creating reports that all manifests are there where a
refresh fails; if the directory cannot be made for another reason, both fail alike. -/
theorem creates_iff_clear (c : ScanContext) (t : FileTree) (history : History) (now : Time.Instant) :
    (∀ report, (create c t history now).result = .ok report →
      ((∀ k, ∃ e, (create c t history now).tree.find ((store c).path k) = .ok e) ↔ ¬t.Barred c.manifestDir)) ∧
    (t.Barred c.manifestDir →
      create c t history now = ⟨t, .persisted, none, .ok { skipped := Kind.all }⟩ ∧
        (c.manifestDir.text ≠ "" → ∃ e, ((store c).prepare t).2 = .error e)) ∧
    ∀ e, ((store c).prepare t).2 = .error e →
      (∀ kinds, kinds ≠ [] →
        (refresh c t history now kinds).result = .error (.manifestDir c.manifestDir e)) ∧
      ((create c t history now).result = .error (.manifestDir c.manifestDir e) ↔ ¬t.Barred c.manifestDir) := by
  refine ⟨fun report done => ⟨fun found barred => ?_, fun clear => find_of_created clear done⟩, fun barred => ?_,
    fun e failed => ⟨fun kinds filled => ?_, fun same barred => ?_, fun clear => ?_⟩⟩
  · obtain ⟨e, there⟩ := found .symbols
    rw [create_of_barred barred] at there
    cases there.symm.trans ((FileTree.find_join_eq_notFolder_iff (Kind.isName_fileName .symbols)).2 barred)
  · exact ⟨create_of_barred barred history now, Store.exists_prepare_error (s := store c) barred⟩
  · exact write_of_unprepared (loadAll_ne_nil filled) failed
  · rw [create_of_barred barred] at same
    cases same
  · rw [create_eq]
    exact write_of_unprepared (loadAll_ne_nil (List.ne_nil_of_mem (absent_of_unprepared clear failed .symbols))) failed

/-- The sample repository with a file in the place of its directory. -/
def barredTree : FileTree := (({} : FileTree).put ["r"] .folder).put ["r", ".cartograph"] (.file [])

/-- Creating in the sample repository reports what a refresh cannot make. -/
theorem creates_iff_clear_barred :
    barredTree.Barred sampleContext.manifestDir ∧
      ((store sampleContext).prepare barredTree).2 = .error .exists ∧
      (refresh sampleContext barredTree (fun _ => none) ⟨0, 0⟩ Kind.all).result =
        .error (.manifestDir ⟨"/r/.cartograph"⟩ .exists) ∧
      create sampleContext barredTree (fun _ => none) ⟨0, 0⟩ =
        ⟨barredTree, .persisted, none, .ok { skipped := Kind.all }⟩ := by
  have barred : barredTree.Barred sampleContext.manifestDir :=
    ⟨sampleContext.manifestDir.components, List.prefix_rfl, ["r", ".cartograph"], [], by decide +kernel,
      by decide +kernel⟩
  have failed : ((store sampleContext).prepare barredTree).2 = .error .exists := by decide +kernel
  obtain ⟨-, reports, fails⟩ := creates_iff_clear sampleContext barredTree (fun _ => none) ⟨0, 0⟩
  exact ⟨barred, failed, (fails .exists failed).1 Kind.all (List.cons_ne_nil _ _), (reports barred).1⟩

end Run

end Gazetteer
