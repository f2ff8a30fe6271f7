import Gazetteer.Proofs.Upkeep.Write

/-!
# What runs keep

A run that succeeds keeps the manual region of every manifest that could be loaded, and raises its version by one if
it was asked to write it (`Run.write_keeps`).  So does any sequence of runs, whatever happens between them to other
files (`manual_of_runs`).
-/

namespace Gazetteer

set_option autoImplicit false

theorem Json.integral_of_string {v : Json} (text : v.string?.isSome = true) : v.Integral := by
  cases v with
  | string s => exact trivial
  | _ => cases text

namespace Run

variable {c : ScanContext} {t : FileTree} {history : History} {now : Time.Instant} {kinds skipped : List Kind}
  {report : RefreshReport} {k : Kind} {d : Document}

/-- A run that succeeds keeps the manual region of a manifest, and raises the version of one it writes. -/
theorem write_keeps (range : now.inRange = true)
    (done : (write c t history now ((store c).loadAll t kinds) skipped).result = .ok report)
    (loaded : (store c).load t k = .loaded d) (integral : d.manual.Integral) :
    ∃ d', (store c).load (write c t history now ((store c).loadAll t kinds) skipped).tree k = .loaded d' ∧
      d'.manual = d.manual ∧ d'.metadata.version = d.metadata.version + .ofNat (if k ∈ kinds then 1 else 0) := by
  have kept : d.manual.reread = d.manual := ManualRegion.reread_of_kept (Document.kept_of_load loaded) integral
  obtain rfl | filled : kinds = [] ∨ kinds ≠ [] := Classical.em _
  · exact ⟨d, loaded, rfl, by rw [if_neg List.not_mem_nil]; exact (UInt64.add_zero _).symm⟩
  · have filled : (store c).loadAll t kinds ≠ [] := loadAll_ne_nil filled
    obtain ⟨settled, l, ready, here, free, tree, -⟩ := ready_of_ok filled done
    rw [tree]
    by_cases listed : k ∈ kinds
    · obtain ⟨s, -, fresh, settles⟩ := Outcome.exists_of_mem_left (settles_each ready.each) listed
      rw [if_pos listed]
      refine ⟨_, load_written here free settles listed range, ?_, ?_⟩
      · rw [loaded, stored_loaded_manual]
        exact kept
      · rw [loaded, stored_loaded_version]
        rfl
    · obtain ⟨l', bytes, there, -, -⟩ := Store.file_of_load loaded
      have same : prepared c t = t := prepared_of_folderAt there
      rw [load_unwritten here free listed, same, if_neg listed]
      exact ⟨d, loaded, rfl, (UInt64.add_zero _).symm⟩

end Run

/-- Runs over one manifest directory, with the number of those that were to write a given kind.  Between runs the file
of this manifest stays as it is, and anything else may change. -/
inductive Runs (dir : Path) (k : Kind) (t : FileTree) : Nat → FileTree → Prop
  | start : Runs dir k t 0 t
  | edit {n : Nat} {t' t'' : FileTree} (before : Runs dir k t n t')
      (same : t''.read ((Store.mk dir).path k) = t'.read ((Store.mk dir).path k)) : Runs dir k t n t''
  | refresh {n : Nat} {t' : FileTree} {c : ScanContext} {history : History} {now : Time.Instant} {kinds : List Kind}
      {report : RefreshReport} (before : Runs dir k t n t') (place : c.manifestDir = dir) (range : now.inRange = true)
      (done : (Run.refresh c t' history now kinds).result = .ok report) :
      Runs dir k t (n + if k ∈ kinds then 1 else 0) (Run.refresh c t' history now kinds).tree
  | create {n : Nat} {t' : FileTree} {c : ScanContext} {history : History} {now : Time.Instant}
      {report : RefreshReport} (before : Runs dir k t n t') (place : c.manifestDir = dir) (range : now.inRange = true)
      (done : (Run.create c t' history now).result = .ok report) : Runs dir k t n (Run.create c t' history now).tree
  | status {n : Nat} {t' : FileTree} {c : ScanContext} {history : History} {now : Time.Instant}
      (before : Runs dir k t n t') (place : c.manifestDir = dir) : Runs dir k t n (Run.status c t' history now).tree

/-- Any sequence of runs keeps the manual region of a manifest that could be loaded, and its version counts the runs
that were to write it. -/
theorem manual_of_runs {dir : Path} {k : Kind} {t t' : FileTree} {n : Nat} {d : Document} (runs : Runs dir k t n t')
    (loaded : (Store.mk dir).load t k = .loaded d) (integral : d.manual.Integral) :
    ∃ d', (Store.mk dir).load t' k = .loaded d' ∧ d'.manual = d.manual ∧
      d'.metadata.version = d.metadata.version + .ofNat n := by
  induction runs with
  | start => exact ⟨d, loaded, rfl, (UInt64.add_zero _).symm⟩
  | edit _ same ih =>
    obtain ⟨d', found, manual, version⟩ := ih
    exact ⟨d', by rw [Store.load, same]; exact found, manual, version⟩
  | @refresh n _ c _ _ kinds _ _ place range done ih =>
    obtain ⟨d', found, manual, version⟩ := ih
    subst place
    obtain ⟨d'', later, manual', version'⟩ := Run.write_keeps range done found (manual ▸ integral)
    exact ⟨d'', later, manual'.trans manual, by rw [version', version, UInt64.ofNat_add, UInt64.add_assoc]⟩
  | @create n t' c history now _ _ place range done ih =>
    obtain ⟨d', found, manual, version⟩ := ih
    subst place
    rw [Run.create_eq] at done ⊢
    obtain ⟨d'', later, manual', version'⟩ := Run.write_keeps range done found (manual ▸ integral)
    have there : k ∉ Run.absent c t' := by
      intro listed
      have missing := (List.mem_filter.1 listed).2
      rw [show (Run.store c).load t' k = .loaded d' from found] at missing
      cases missing
    rw [if_neg there] at version'
    exact ⟨d'', later, manual'.trans manual, by rw [version', version]; exact UInt64.add_zero _⟩
  | status _ _ ih => exact ih

/-- The sample repository with a manifest that holds a note. -/
def noteTree : FileTree := Run.sampleTree.put ["r", ".cartograph", "imports.json"] (.file (Text.Utf8.encode
  ("\x7b\"_metadata\":\x7b\"lastUpdated\":\"2026-01-01T00:00:00Z\",\"version\":4,\"changesSinceLastUpdate\":0," ++
    "\"autoGenerated\":true\x7d,\"notes\":\"Ask before moving src/legacy.\"\x7d")))

theorem manual_of_runs_note :
    ∃ d d', (Store.mk ⟨"/r/.cartograph"⟩).load noteTree .imports = .loaded d ∧
      (Store.mk ⟨"/r/.cartograph"⟩).load (Run.refresh Run.sampleContext noteTree (fun _ => none) ⟨0, 0⟩ [.imports]).tree
        .imports = .loaded d' ∧
      d'.manual = d.manual ∧ d'.metadata.version = d.metadata.version + .ofNat 1 := by
  have note : ((Store.mk ⟨"/r/.cartograph"⟩).load noteTree .imports).document?.any
      (fun d => d.manual.members.entries.all fun e => e.2.string?.isSome) = true := by decide +kernel
  have done : (Run.refresh Run.sampleContext noteTree (fun _ => none) ⟨0, 0⟩ [.imports]).result.isOk = true := by
    decide +kernel
  obtain ⟨d, found, texts⟩ := (Option.any_eq_true _ _).1 note
  obtain ⟨report, result⟩ := Outcome.exists_of_isOk done
  have loaded := Prior.document?_eq_some.1 found
  have integral : d.manual.Integral := fun e member => Json.integral_of_string (List.all_eq_true.1 texts e member)
  have runs : Runs ⟨"/r/.cartograph"⟩ .imports noteTree (0 + 1)
      (Run.refresh Run.sampleContext noteTree (fun _ => none) ⟨0, 0⟩ [.imports]).tree :=
    .refresh .start rfl (by decide) result
  obtain ⟨d', later, manual, version⟩ := manual_of_runs runs loaded integral
  exact ⟨d, d', loaded, later, manual, version⟩

end Gazetteer
