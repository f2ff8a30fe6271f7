import Gazetteer.Proofs.Upkeep.Creation

/-!
# What a run leaves alone

A file that is not the same after a run is one that the run is for (`Run.Target`): the manifest of a kind it was asked
for, the view of one, or the copy of a manifest that could not be read (`Run.target_of_changed`).  As the names of
different kinds are different, the manifest of any other kind is untouched (`Run.read_of_unlisted`).  Creating is
asked for the kinds whose manifest is missing, so it replaces no manifest, and once it has succeeded there is nothing
left to create (`Run.create_again`).
-/

namespace Gazetteer

set_option autoImplicit false

/-- Writing files changes no others. -/
theorem FileTree.exists_mem_of_bytes?_ne {t : FileTree} {l m : Location} {files : List (String × List UInt8)}
    (changed : (t.writeFiles l files).bytes? m ≠ t.bytes? m) : ∃ f ∈ files, m = l ++ [f.1] := by
  by_contra none
  have apart : ∀ f ∈ files, m ≠ l ++ [f.1] := fun f member same => none ⟨f, member, same⟩
  rw [bytes?, get?_writeFiles_of_not_mem apart] at changed
  exact changed rfl

namespace Run

variable {c c' : ScanContext} {t : FileTree} {history : History} {now : Time.Instant} {kinds skipped : List Kind}
  {k : Kind} {l : Location}

/-- Where a run for some kinds, from one tree to another, may have written: the manifest of one of the kinds, its view,
or the copy of what was found there and could not be read. -/
inductive Target (c : ScanContext) (t t' : FileTree) (kinds : List Kind) (l : Location) : Prop
  | manifest {k : Kind} (listed : k ∈ kinds) (led : t'.locate ((store c).path k) = .ok l)
  | view {k : Kind} {p : Path} (listed : k ∈ kinds) (shown : (store c).markdownPath? k = some p)
      (led : t'.locate p = .ok l)
  | backup {k : Kind} (listed : k ∈ kinds) (spoilt : (backupOf ((store c).load t k)).isSome = true)
      (led : t'.locate ((store c).backupPath k) = .ok l)

/-- A run changes the files it is for and no others, whether or not it succeeds. -/
theorem target_of_changed (changed : (write c t history now ((store c).loadAll t kinds) skipped).tree.bytes? l ≠
      t.bytes? l) : Target c t (write c t history now ((store c).loadAll t kinds) skipped).tree kinds l := by
  obtain grows | ⟨dir, written, here, free, lead, tree⟩ :=
    write_tree c t history now ((store c).loadAll t kinds) skipped
  · exact absurd (grows.sameFiles.bytes?_eq l) changed
  · rw [tree, ← (sameFiles_prepared c t).bytes?_eq l] at changed
    rw [tree]
    obtain ⟨f, member, rfl⟩ := FileTree.exists_mem_of_bytes?_ne changed
    obtain ⟨found, listed, inner⟩ := List.mem_flatMap.1 (lead.subset member)
    obtain ⟨k, chosen, rfl⟩ := List.mem_map.1 listed
    have name : Path.IsName f.1 := Kind.isName_of_mem_names (mem_names_of_mem_planned inner)
    have led : ((prepared c t).writeFiles dir written).locate (c.manifestDir.join f.1) = .ok (dir ++ [f.1]) := by
      refine FileTree.locate_join_of_present name (here.of_keeps (FileTree.keeps_writeFiles free)) ?_
      rw [FileTree.get?_writeFiles_of_mem (agree_of_lead lead) member]
      rfl
    obtain own | view | ⟨copy, spoilt⟩ := name_of_mem_planned inner
    · rw [own] at led ⊢
      exact .manifest chosen led
    · refine .view chosen ?_ led
      rw [Store.markdownPath?, view]
      rfl
    · rw [copy] at led ⊢
      exact .backup chosen spoilt led

/-- The manifest of a kind that a run is not for is untouched. -/
theorem read_of_unlisted {bytes : List UInt8} (unlisted : k ∉ kinds)
    (read : t.read ((store c).path k) = .ok bytes) :
    (write c t history now ((store c).loadAll t kinds) skipped).tree.read ((store c).path k) = .ok bytes := by
  obtain ⟨l, here, held⟩ := FileTree.folderAt_of_read_join k.isName_fileName read
  have after := here.of_keeps (keeps_write c t history now ((store c).loadAll t kinds) skipped)
  have kept : (write c t history now ((store c).loadAll t kinds) skipped).tree.get? (l ++ [k.fileName]) =
      some (.file bytes) := by
    obtain grows | ⟨dir, written, -, -, lead, tree⟩ :=
      write_tree c t history now ((store c).loadAll t kinds) skipped
    · exact grows.kept _ _ held
    · have apart : ∀ f ∈ written, l ++ [k.fileName] ≠ dir ++ [f.1] := fun f member =>
        ne_of_mem_files unlisted l dir f (lead.subset member)
      rw [tree, FileTree.get?_writeFiles_of_not_mem apart]
      exact (Store.grows_prepare (store c) t).kept _ _ held
  refine (FileTree.read_join k.isName_fileName after).trans ?_
  rw [kept]

/-! ## Creating -/

/-- What creating changes is the manifest or the view of a kind whose manifest was missing. -/
theorem missing_of_changed (changed : (create c t history now).tree.bytes? l ≠ t.bytes? l) :
    ∃ k, t.read ((store c).path k) = .error .notFound ∧
      ((create c t history now).tree.locate ((store c).path k) = .ok l ∨
        ∃ p, (store c).markdownPath? k = some p ∧ (create c t history now).tree.locate p = .ok l) := by
  rw [create_eq] at changed ⊢
  cases target_of_changed changed with
  | @manifest k listed led => exact ⟨k, mem_absent.1 listed, .inl led⟩
  | @view k p listed shown led => exact ⟨k, mem_absent.1 listed, .inr ⟨p, shown, led⟩⟩
  | @backup k listed spoilt led =>
    rw [Store.load_eq_missing_iff.2 (mem_absent.1 listed)] at spoilt
    cases spoilt

/-- After creating has succeeded, creating in the same directory does nothing. -/
theorem create_again {report : RefreshReport} (done : (create c t history now).result = .ok report)
    (same : c'.manifestDir = c.manifestDir) (history' : History) (now' : Time.Instant) :
    create c' (create c t history now).tree history' now' =
      ⟨(create c t history now).tree, .persisted, none, .ok { skipped := Kind.all }⟩ := by
  by_cases barred : t.Barred c.manifestDir
  · rw [create_of_barred barred]
    exact create_of_barred (same ▸ barred) history' now'
  · refine create_of_found (fun k missing => ?_) history' now'
    obtain ⟨e, there⟩ := find_of_created barred done k
    have lost := FileTree.read_eq_notFound_iff.1 missing
    rw [Store.path, store, same] at lost
    cases lost.symm.trans there

/-- A refresh, failed or not, changes no files but the manifests, the views and the copies of the kinds it was asked for.
Creating changes none but the manifests and views of the kinds whose manifest was missing; so a manifest that is there,
readable or not, keeps its bytes, and creating again in the same directory, once it has succeeded, changes nothing. -/
theorem confined (c : ScanContext) (t : FileTree) (history : History) (now : Time.Instant) :
    (∀ kinds l, (refresh c t history now kinds).tree.bytes? l ≠ t.bytes? l →
      Target c t (refresh c t history now kinds).tree kinds l) ∧
    (∀ l, (create c t history now).tree.bytes? l ≠ t.bytes? l →
      ∃ k, t.read ((store c).path k) = .error .notFound ∧
        ((create c t history now).tree.locate ((store c).path k) = .ok l ∨
          ∃ p, (store c).markdownPath? k = some p ∧ (create c t history now).tree.locate p = .ok l)) ∧
    (∀ k bytes, t.read ((store c).path k) = .ok bytes →
      (create c t history now).tree.read ((store c).path k) = .ok bytes) ∧
    ∀ report, (create c t history now).result = .ok report →
      ∀ c' history' now', c'.manifestDir = c.manifestDir →
        create c' (create c t history now).tree history' now' =
          ⟨(create c t history now).tree, .persisted, none, .ok { skipped := Kind.all }⟩ := by
  refine ⟨fun kinds l => target_of_changed, fun l => missing_of_changed, fun k bytes read => ?_,
    fun report done c' history' now' same => create_again done same history' now'⟩
  have unlisted : k ∉ absent c t := fun listed => by cases (mem_absent.1 listed).symm.trans read
  rw [create_eq]
  exact read_of_unlisted unlisted read

/-- The sample repository with manifests that are no JSON, and one that is missing. -/
def strayTree : FileTree :=
  [Kind.exports, .imports, .patterns, .techStack, .apiSurface].foldl
    (fun t k => t.put ["r", ".cartograph", k.fileName] (.file [0x21])) sampleTree

/-- A refresh copies the manifest it was asked for; creating makes the missing one and leaves the others alone. -/
theorem confined_stray :
    (refresh sampleContext strayTree (fun _ => none) ⟨0, 0⟩ [.imports]).tree.bytes?
        ["r", ".cartograph", "imports.json.corrupt"] ≠
      strayTree.bytes? ["r", ".cartograph", "imports.json.corrupt"] ∧
    Target sampleContext strayTree (refresh sampleContext strayTree (fun _ => none) ⟨0, 0⟩ [.imports]).tree
      [.imports] ["r", ".cartograph", "imports.json.corrupt"] ∧
    (create sampleContext strayTree (fun _ => none) ⟨0, 0⟩).tree.bytes? ["r", ".cartograph", "symbols.md"] ≠
      strayTree.bytes? ["r", ".cartograph", "symbols.md"] ∧
    (∃ k, strayTree.read ((store sampleContext).path k) = .error .notFound) ∧
    strayTree.read ((store sampleContext).path .imports) = .ok [0x21] ∧
    (create sampleContext strayTree (fun _ => none) ⟨0, 0⟩).tree.read ((store sampleContext).path .imports) =
      .ok [0x21] ∧
    (create sampleContext strayTree (fun _ => none) ⟨0, 0⟩).result.isOk = true ∧
    create sampleContext (create sampleContext strayTree (fun _ => none) ⟨0, 0⟩).tree (fun _ => none) ⟨9, 0⟩ =
      ⟨(create sampleContext strayTree (fun _ => none) ⟨0, 0⟩).tree, .persisted, none,
        .ok { skipped := Kind.all }⟩ := by
  obtain ⟨targets, missing, keeps, again⟩ := confined sampleContext strayTree (fun _ => none) ⟨0, 0⟩
  have copied : (refresh sampleContext strayTree (fun _ => none) ⟨0, 0⟩ [.imports]).tree.bytes?
      ["r", ".cartograph", "imports.json.corrupt"] ≠
        strayTree.bytes? ["r", ".cartograph", "imports.json.corrupt"] := by
    decide +kernel
  have created : (create sampleContext strayTree (fun _ => none) ⟨0, 0⟩).tree.bytes?
      ["r", ".cartograph", "symbols.md"] ≠ strayTree.bytes? ["r", ".cartograph", "symbols.md"] ∧
        (create sampleContext strayTree (fun _ => none) ⟨0, 0⟩).result.isOk = true := by
    decide +kernel
  have read : strayTree.read ((store sampleContext).path .imports) = .ok [0x21] := by decide +kernel
  obtain ⟨viewed, succeeds⟩ := created
  obtain ⟨k, absent, -⟩ := missing _ viewed
  obtain ⟨report, done⟩ := Outcome.exists_of_isOk succeeds
  exact ⟨copied, targets _ _ copied, viewed, ⟨k, absent⟩, read, keeps .imports _ read, succeeds,
    again report done sampleContext _ _ rfl⟩

end Run

end Gazetteer
