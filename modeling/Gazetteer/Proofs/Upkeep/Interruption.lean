import Gazetteer.Proofs.Upkeep.Failure

/-!
# Runs that are interrupted

Files are replaced one after the other, and a run may end between any two of them.  Then its files are written up to
some place in their order and no further (`Store.exists_prefix_of_passes`), so each of them holds what it did or all
that it is to hold; and a manifest that could not be read is replaced only after it was copied
(`Run.targets_of_passes`).
-/

namespace Gazetteer

set_option autoImplicit false

namespace Store

/-- A tree that is passed through while files are replaced one after the other, the first and the last included. -/
inductive Passes : FileTree → List (Path × List UInt8) → FileTree → Prop
  | here {t : FileTree} {files : List (Path × List UInt8)} : Passes t files t
  | later {t next t' : FileTree} {path : Path} {bytes : List UInt8} {files : List (Path × List UInt8)}
      (done : t.replace path bytes = .ok next) (others : Passes next files t') : Passes t ((path, bytes) :: files) t'

variable {t t' : FileTree} {dir : Path} {l : Location}

/-- All that is written is a tree that is passed through. -/
theorem passes_writeAll (t : FileTree) (files : List (Path × List UInt8)) : Passes t files (writeAll t files).1 := by
  induction files generalizing t with
  | nil => exact .here
  | cons file files ih =>
    obtain ⟨path, bytes⟩ := file
    rw [writeAll]
    cases done : t.replace path bytes with
    | error e => exact .here
    | ok next =>
      have others := ih next
      dsimp only
      split
      · rename_i all
        rw [all] at others
        exact .later done others
      · exact .later done others

/-- Passing through a tree is writing the files up to some place. -/
theorem exists_prefix_of_passes (here : t.FolderAt dir l) {files : List (String × List UInt8)}
    (names : ∀ f ∈ files, Path.IsName f.1) (passes : Passes t (files.map fun f => (dir.join f.1, f.2)) t') :
    ∃ written, written <+: files ∧ t.Free l written ∧ t' = t.writeFiles l written := by
  induction files generalizing t with
  | nil =>
    cases passes
    exact ⟨[], List.prefix_rfl, nofun, rfl⟩
  | cons f files ih =>
    obtain ⟨name, names⟩ := List.forall_mem_cons.1 names
    rw [List.map_cons] at passes
    cases passes with
    | here => exact ⟨[], List.nil_prefix, nofun, rfl⟩
    | later done others =>
      rw [FileTree.replace_join name here] at done
      split at done
      · cases done
      · rename_i other
        cases done
        obtain ⟨written, lead, free, rfl⟩ := ih (here.of_keeps (FileTree.keeps_put other)) names others
        exact ⟨f :: written, (List.prefix_cons_inj f).2 lead,
          FileTree.free_cons.2 ⟨other, (FileTree.free_put other).1 free⟩, rfl⟩

end Store

namespace Run

variable {c : ScanContext} {t t' : FileTree} {history : History} {now : Time.Instant} {found : List Found}
  {kinds : List Kind} {analysis : Analysis} {settled : List Settled} {k : Kind} {prior : Prior}
  {written : List (String × List UInt8)}

/-- A file of a kind is planned only with what is found for this kind. -/
theorem kind_of_mem_planned {a : Found} {f : String × List UInt8} (member : f ∈ planned c analysis now a)
    (own : f.1 ∈ k.names) : a.1 = k :=
  Kind.eq_of_mem_names (mem_names_of_mem_planned member) own

/-- The copy of bytes that could not be read comes before all other files of their kind. -/
theorem planned_of_corrupt {reason : String} {raw : List UInt8} (corrupt : prior = .corrupt reason raw)
    (filled : raw ≠ []) (some : planned c analysis now (k, prior) ≠ []) :
    ∃ rest, planned c analysis now (k, prior) = (k.fileName ++ ".corrupt", raw) :: rest := by
  have backup : backupOf prior = .some raw := by
    rw [corrupt, backupOf, if_neg fun none => filled (List.isEmpty_iff.1 none)]
  unfold planned at some ⊢
  split at some
  · exact absurd rfl some
  · dsimp only at some ⊢
    split at some
    · exact absurd rfl some
    · rw [backup]
      exact ⟨_, rfl⟩

/-- Whichever files are written, up to some place, the copy of a manifest is among them if one of its other files is. -/
theorem backup_mem_of_prefix {reason : String} {raw : List UInt8} (corrupt : prior = .corrupt reason raw)
    (filled : raw ≠ []) (only : ∀ a ∈ found, a.1 = k → a.2 = prior) (lead : written <+: files c analysis now found)
    {f : String × List UInt8} (own : f.1 ∈ k.names) (member : f ∈ written) :
    (k.fileName ++ ".corrupt", raw) ∈ written := by
  induction found generalizing written with
  | nil =>
    rw [List.prefix_nil.1 lead] at member
    cases member
  | cons a found ih =>
    obtain ⟨here, others⟩ := List.forall_mem_cons.1 only
    have split : files c analysis now (a :: found) = planned c analysis now a ++ files c analysis now found := rfl
    -- a file of the kind that is planned with the first of what is found comes after the copy
    have copied {front : List (String × List UInt8)} (start : front <+: planned c analysis now a) (inner : f ∈ front) :
        (k.fileName ++ ".corrupt", raw) ∈ front := by
      have kind : a.1 = k := kind_of_mem_planned (start.subset inner) own
      have same : a = (k, prior) := Prod.ext kind (here kind)
      rw [same] at start
      obtain ⟨rest, plan⟩ : ∃ rest, planned c analysis now (k, prior) = (k.fileName ++ ".corrupt", raw) :: rest :=
        planned_of_corrupt corrupt filled (List.ne_nil_of_mem (start.subset inner))
      rw [plan] at start
      obtain none | ⟨tail, rfl, -⟩ := List.prefix_cons_iff.1 start
      · rw [none] at inner
        cases inner
      · exact List.mem_cons_self
    rw [split] at lead
    obtain inside | ⟨rest, rfl⟩ := List.prefix_or_prefix_of_prefix lead (List.prefix_append _ _)
    · exact copied inside member
    · have later := (List.prefix_append_right_inj _).1 lead
      obtain first | last := List.mem_append.1 member
      · exact List.mem_append_left rest (copied List.prefix_rfl first)
      · exact List.mem_append_right _ (ih others later last)

/-- What was found for a kind is found wherever the kind is. -/
theorem prior_of_mem_loadAll {s : Store} {a : Found} (member : a ∈ s.loadAll t kinds) (kind : a.1 = k) :
    a.2 = s.load t k := by
  obtain ⟨k', -, rfl⟩ := List.mem_map.1 member
  dsimp only at kind ⊢
  rw [kind]

section Prefix

variable {l : Location}

/-- A file that is written up to some place in the order of a run holds what it did or all that it is to hold. -/
theorem bytes?_of_prefix (lead : written <+: files c analysis now ((store c).loadAll t kinds))
    {f : String × List UInt8} (member : f ∈ files c analysis now ((store c).loadAll t kinds)) :
    ((prepared c t).writeFiles l written).bytes? (l ++ [f.1]) = t.bytes? (l ++ [f.1]) ∨
      ((prepared c t).writeFiles l written).bytes? (l ++ [f.1]) = some f.2 := by
  by_cases reached : ∃ g ∈ written, g.1 = f.1
  · obtain ⟨g, listed, same⟩ := reached
    have bytes : g.2 = f.2 := agree_files (lead.subset listed) member same
    right
    rw [FileTree.bytes?, ← same, FileTree.get?_writeFiles_of_mem (agree_of_lead lead) listed, bytes]
  · have apart : ∀ g ∈ written, l ++ [f.1] ≠ l ++ [g.1] := fun g listed same =>
      reached ⟨g, listed, (List.singleton_inj.1 (List.append_cancel_left same)).symm⟩
    left
    rw [FileTree.bytes?, FileTree.get?_writeFiles_of_not_mem apart]
    exact (sameFiles_prepared c t).bytes?_eq _

/-- A manifest that could not be read is in its place or in its copy, up to wherever files are written. -/
theorem read_of_prefix {reason : String} {raw : List UInt8} (here : (prepared c t).FolderAt c.manifestDir l)
    (lead : written <+: files c analysis now ((store c).loadAll t kinds)) (free : (prepared c t).Free l written)
    (corrupt : (store c).load t k = .corrupt reason raw) (filled : raw ≠ [])
    (gone : ((prepared c t).writeFiles l written).read ((store c).path k) ≠ .ok raw) :
    ((prepared c t).writeFiles l written).read ((store c).backupPath k) = .ok raw := by
  obtain ⟨l', there, below, -⟩ := Store.file_of_corrupt corrupt filled
  have same : prepared c t = t := prepared_of_folderAt there
  obtain rfl : l = l' := FileTree.FolderAt.unique (same ▸ here) there
  have after : ((prepared c t).writeFiles l written).FolderAt (store c).dir l :=
    here.of_keeps (FileTree.keeps_writeFiles free)
  have backup : k.fileName ++ ".corrupt" ∈ k.names := List.mem_cons_self
  rw [Store.path, FileTree.read_join k.isName_fileName after] at gone
  by_cases reached : ∃ f ∈ written, f.1 = k.fileName
  · obtain ⟨f, listed, name⟩ := reached
    have copied := backup_mem_of_prefix corrupt filled (fun a => prior_of_mem_loadAll) lead
      (name ▸ k.fileName_mem_names) listed
    have held := FileTree.get?_writeFiles_of_mem (t := prepared c t) (l := l) (agree_of_lead lead) copied
    rw [Store.backupPath, FileTree.read_join (Kind.isName_of_mem_names backup) after, held]
  · have apart : ∀ f ∈ written, l ++ [k.fileName] ≠ l ++ [f.1] := fun f listed same =>
      reached ⟨f, listed, (List.singleton_inj.1 (List.append_cancel_left same)).symm⟩
    rw [FileTree.get?_writeFiles_of_not_mem apart, same, below] at gone
    exact absurd rfl gone

end Prefix

/-- Wherever a run is interrupted while it replaces its files, each of them holds what it did before the run or all that
was to be written; and a manifest that could not be read is still in its place, or its bytes are in the copy of it.  The
run itself leads through such trees. -/
theorem targets_of_passes (ready : Ready c t history now ((store c).loadAll t kinds) settled) :
    (∀ t', Store.Passes (prepared c t) ((settled.map (·.staged)).flatMap (·.files)) t' →
      (∀ f ∈ (settled.map (·.staged)).flatMap (·.files), ∃ l name, t'.FolderAt c.manifestDir l ∧
        f.1 = c.manifestDir.join name ∧
        (t'.bytes? (l ++ [name]) = t.bytes? (l ++ [name]) ∨ t'.bytes? (l ++ [name]) = some f.2)) ∧
      ∀ k ∈ kinds, ∀ reason raw, (store c).load t k = .corrupt reason raw → raw ≠ [] →
        t'.read ((store c).path k) ≠ .ok raw → t'.read ((store c).backupPath k) = .ok raw) ∧
    (kinds ≠ [] → Store.Passes (prepared c t) ((settled.map (·.staged)).flatMap (·.files))
      (refresh c t history now kinds).tree) := by
  rw [files_of_each ready.each]
  obtain rfl | some : kinds = [] ∨ kinds ≠ [] := Classical.em _
  · exact ⟨fun t' _ => ⟨nofun, nofun⟩, fun some => absurd rfl some⟩
  · have filled : (store c).loadAll t kinds ≠ [] := loadAll_ne_nil some
    obtain ⟨l, here⟩ := ready.folderAt filled
    refine ⟨fun t' passes => ?_, fun _ => ?_⟩
    · obtain ⟨written, lead, free, rfl⟩ := Store.exists_prefix_of_passes here isName_of_mem_files passes
      refine ⟨fun f member => ?_, fun k _ reason raw corrupt => read_of_prefix here lead free corrupt⟩
      obtain ⟨g, listed, rfl⟩ := List.mem_map.1 member
      exact ⟨l, g.1, here.of_keeps (FileTree.keeps_writeFiles free), rfl, bytes?_of_prefix lead listed⟩
    · have tree := (write_of_ready [] filled ready here).1
      have all := Store.passes_writeAll (prepared c t)
        ((files c (Analysis.make c t history ((store c).loadAll t kinds)) now ((store c).loadAll t kinds)).map
          fun f => (c.manifestDir.join f.1, f.2))
      rw [Store.writeAll_join here isName_of_mem_files] at all
      rw [refresh, tree]
      exact all

/-- The sample repository with a manifest that is no JSON. -/
def spoiltTree : FileTree := sampleTree.put ["r", ".cartograph", "imports.json"] (.file [0x21])

/-- A refresh that is interrupted keeps the bytes of the manifest it could not read. -/
theorem targets_of_passes_spoilt :
    ∃ settled, Ready sampleContext spoiltTree (fun _ => none) ⟨0, 0⟩
        ((store sampleContext).loadAll spoiltTree [.imports, .symbols]) settled ∧
      (∃ reason, (store sampleContext).load spoiltTree .imports = .corrupt reason [0x21]) ∧
      ∀ t', Store.Passes (prepared sampleContext spoiltTree) ((settled.map (·.staged)).flatMap (·.files)) t' →
        t'.read ((store sampleContext).path .imports) ≠ .ok [0x21] →
          t'.read ((store sampleContext).backupPath .imports) = .ok [0x21] := by
  have read : spoiltTree.read ((store sampleContext).path .imports) = .ok [0x21] := by decide +kernel
  have spoilt : backupOf ((store sampleContext).load spoiltTree .imports) = some [0x21] := by
    rw [Store.load_of_read read]
    decide +kernel
  have succeeds :
      (refresh sampleContext spoiltTree (fun _ => none) ⟨0, 0⟩ [.imports, .symbols]).result.isOk = true := by
    decide +kernel
  obtain ⟨report, done⟩ := Outcome.exists_of_isOk succeeds
  obtain ⟨reason, corrupt, filled⟩ := backupOf_eq_some spoilt
  obtain ⟨settled, l, ready, -⟩ := ready_of_ok (List.cons_ne_nil _ _) done
  refine ⟨settled, ready, ⟨reason, corrupt⟩, fun t' passes => ?_⟩
  exact ((targets_of_passes ready).1 t' passes).2 .imports List.mem_cons_self reason _ corrupt filled

end Run

end Gazetteer
