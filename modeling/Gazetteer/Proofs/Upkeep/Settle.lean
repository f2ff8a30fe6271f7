import Gazetteer.Proofs.Files.Folders
import Gazetteer.Proofs.Manifest.Reload
import Gazetteer.Upkeep.Run

/-!
# What is settled for one manifest

`Run.settle` ends in a document, the files it is written to and the report of its update; `Run.settle_eq_ok` is
everything it can do.  The files are planned by their names in the directory (`Run.planned`), and the names of
different kinds are different (`Kind.eq_of_mem_names`).
-/

namespace Gazetteer

set_option autoImplicit false

/-! ## Names of the files of a kind -/

namespace Kind

theorem mem_all (k : Kind) : k ∈ all := by cases k <;> decide

/-- The names of all files that a kind may have in the directory. -/
def names (k : Kind) : List String := (k.fileName ++ ".corrupt") :: k.fileName :: k.markdownName?.toList

/-- The names of all files that any kind may have. -/
def allNames : List String := all.flatMap names

theorem mem_allNames {k : Kind} {s : String} (member : s ∈ k.names) : s ∈ allNames :=
  List.mem_flatMap.2 ⟨k, k.mem_all, member⟩

theorem isName_of_mem_names {k : Kind} {s : String} (member : s ∈ k.names) : Path.IsName s := by
  have all : ∀ s ∈ k.names, Path.IsName s := by cases k <;> decide
  exact all s member

theorem nodup_names (k : Kind) : k.names.Nodup := by cases k <;> decide

theorem fileName_mem_names (k : Kind) : k.fileName ∈ k.names := List.mem_cons_of_mem _ List.mem_cons_self

theorem isName_fileName (k : Kind) : Path.IsName k.fileName := isName_of_mem_names k.fileName_mem_names

/-- A name belongs to one kind. -/
theorem eq_of_mem_names {k k' : Kind} {s : String} (member : s ∈ k.names) (member' : s ∈ k'.names) : k = k' := by
  have apart : ∀ k k' : Kind, k = k' ∨ ∀ s ∈ k.names, s ∉ k'.names := by
    intro k k'
    cases k <;> cases k' <;> decide
  exact (apart k k').resolve_right fun disjoint => disjoint s member member'

end Kind

/-! ## Staging -/

namespace Store

variable {s : Store} {t : FileTree} {k : Kind}

/-- The files of one manifest by their names, in the order in which they are written. -/
def filesOf (k : Kind) (d : Document) (markdown : Option String) (backup : Option (List UInt8)) :
    List (String × List UInt8) :=
  (backup.map fun bytes => (k.fileName ++ ".corrupt", bytes)).toList ++ [(k.fileName, Text.Utf8.encode d.text)] ++
    (k.markdownName?.bind fun name => markdown.map fun text => (name, Text.Utf8.encode text)).toList

theorem stage_eq_ok {d : Document} {markdown : Option String} {backup : Option (List UInt8)} {staged : Staged}
    (done : s.stage t k d markdown backup = .ok staged) :
    t.find s.dir = .ok .folder ∧
      staged.files = (filesOf k d markdown backup).map fun f => (s.dir.join f.1, f.2) := by
  unfold stage at done
  split at done
  · cases done
  · cases done
  · rename_i found
    cases done
    refine ⟨found, ?_⟩
    rw [filesOf, List.map_append, List.map_append, markdownPath?]
    dsimp only
    congr 1
    · congr 1
      cases backup <;> rfl
    · cases k.markdownName? <;> cases markdown <;> rfl

theorem exists_stage (folder : t.find s.dir = .ok .folder) (k : Kind) (d : Document) (markdown : Option String)
    (backup : Option (List UInt8)) : ∃ staged, s.stage t k d markdown backup = .ok staged := by
  rw [stage, folder]
  exact ⟨_, rfl⟩

theorem filesOf_names {d : Document} {markdown : Option String} {backup : Option (List UInt8)} :
    ((filesOf k d markdown backup).map (·.1)).Sublist k.names := by
  rw [filesOf, List.map_append, List.map_append, Kind.names, List.append_assoc]
  have first : ((backup.map fun bytes => (k.fileName ++ ".corrupt", bytes)).toList.map (·.1)).Sublist
      [k.fileName ++ ".corrupt"] := by
    cases backup
    · exact List.nil_sublist _
    · exact List.Sublist.refl _
  have last : ((k.markdownName?.bind fun name => markdown.map fun text => (name, Text.Utf8.encode text)).toList.map
      (·.1)).Sublist k.markdownName?.toList := by
    cases k.markdownName? with
    | none => exact List.nil_sublist _
    | some name =>
      cases markdown
      · exact List.nil_sublist _
      · exact List.Sublist.refl _
  exact first.append ((List.Sublist.refl [k.fileName]).append last)

theorem mem_filesOf (k : Kind) (d : Document) (markdown : Option String) (backup : Option (List UInt8)) :
    (k.fileName, Text.Utf8.encode d.text) ∈ filesOf k d markdown backup := by
  simp [filesOf]

theorem load_of_read {bytes : List UInt8} (read : t.read (s.path k) = .ok bytes) : s.load t k = priorOf bytes := by
  unfold load
  rw [read]

/-- What is loaded is told by the entry below the directory. -/
theorem load_eq {l : Location} (here : t.FolderAt s.dir l) (k : Kind) :
    s.load t k =
      match t.get? (l ++ [k.fileName]) with
      | some (.file bytes) => priorOf bytes
      | some .folder => .corrupt FileError.isFolder.message []
      | none => .missing := by
  delta load path
  rw [FileTree.read_join k.isName_fileName here]
  cases t.get? (l ++ [k.fileName]) with
  | none => rfl
  | some e => cases e <;> rfl

/-- What is found in the place of a manifest is told by the entry below the directory. -/
theorem find_eq {l : Location} (here : t.FolderAt s.dir l) :
    t.find (s.path k) =
      match t.get? (l ++ [k.fileName]) with
      | some e => .ok e
      | none => .error .notFound := FileTree.find_join k.isName_fileName here

theorem load_eq_missing_iff : s.load t k = .missing ↔ t.read (s.path k) = .error .notFound := by
  delta load
  split
  · rename_i bytes read
    rw [read, priorOf]
    refine ⟨fun missing => ?_, fun failed => ?_⟩
    · split at missing
      · cases missing
      · split at missing <;> cases missing
    · cases failed
  · rename_i read
    exact ⟨fun _ => read, fun _ => rfl⟩
  · rename_i e other read
    rw [read]
    refine ⟨fun missing => ?_, fun failed => ?_⟩
    · cases missing
    · cases failed
      exact absurd rfl other

/-- What is loaded was read from a file below the directory, unless nothing could be read. -/
theorem load_cases (s : Store) (t : FileTree) (k : Kind) :
    (∃ l bytes, t.FolderAt s.dir l ∧ t.get? (l ++ [k.fileName]) = some (.file bytes) ∧ s.load t k = priorOf bytes) ∨
      s.load t k = .missing ∨ ∃ reason, s.load t k = .corrupt reason [] := by
  delta load
  split
  · rename_i bytes read
    obtain ⟨l, here, below⟩ := FileTree.folderAt_of_read_join k.isName_fileName read
    exact .inl ⟨l, bytes, here, below, rfl⟩
  · exact .inr (.inl rfl)
  · exact .inr (.inr ⟨_, rfl⟩)

/-- What was read from a file lies below the directory. -/
theorem file_of_load {d : Document} (found : s.load t k = .loaded d) :
    ∃ l bytes, t.FolderAt s.dir l ∧ t.get? (l ++ [k.fileName]) = some (.file bytes) ∧ priorOf bytes = .loaded d := by
  obtain ⟨l, bytes, here, below, read⟩ | missing | ⟨reason, corrupt⟩ := s.load_cases t k
  · exact ⟨l, bytes, here, below, read ▸ found⟩
  · cases missing ▸ found
  · cases corrupt ▸ found

end Store

/-! ## Settling -/

/-- A document whose content can be read has its view. -/
theorem Markdown.exists_render {k : Kind} {d : Document} {content : Content} (held : d.auto.content k = .ok content) :
    ∃ markdown, render k d = .ok markdown := by
  cases k with
  | symbols =>
    rw [render, held, Outcome.ok_bind]
    cases content <;> exact ⟨_, rfl⟩
  | patterns =>
    rw [render, held, Outcome.ok_bind]
    cases content <;> exact ⟨_, rfl⟩
  | exports | imports | techStack | apiSurface => exact ⟨_, rfl⟩

/-- A kind that has a view is given one. -/
theorem Markdown.isSome_of_render {k : Kind} {d : Document} {content : Content} {markdown : Option String}
    (held : d.auto.content k = .ok content) (kind : content.kind = k) (shown : k.markdownName?.isSome = true)
    (rendered : render k d = .ok markdown) : markdown.isSome = true := by
  cases k with
  | symbols | patterns =>
    rw [render, held, Outcome.ok_bind] at rendered
    cases content <;> cases kind
    cases rendered
    rfl
  | exports | imports | techStack | apiSurface => cases shown

theorem Prior.document?_eq_some {prior : Prior} {d : Document} : prior.document? = some d ↔ prior = .loaded d := by
  cases prior <;> simp [document?]

theorem Survey.kind_content (s : Survey) (k : Kind) : (s.content k).kind = k := by cases k <;> rfl

section Merge

variable {prior : Prior} {fresh : AutoRegion} {changes : UInt64} {now : Time.Instant}

@[simp]
theorem merge_auto : (merge prior fresh changes now).document.auto = fresh := by
  unfold merge
  split <;> rfl

@[simp]
theorem merge_lastUpdated : (merge prior fresh changes now).document.metadata.lastUpdated = now := by
  unfold merge
  split <;> rfl

@[simp]
theorem merge_changes : (merge prior fresh changes now).document.metadata.changes = changes := by
  unfold merge
  split <;> rfl

end Merge

namespace Run

variable {c : ScanContext} {t : FileTree} {analysis : Analysis} {now : Time.Instant} {found : Found}

/-- What follows what is found for a kind, once the region of the fresh content is made. -/
def next (c : ScanContext) (analysis : Analysis) (now : Time.Instant) (found : Found) (fresh : AutoRegion) :
    MergeOutcome :=
  merge found.2 fresh (changeCount c analysis.log found.1 found.2 (analysis.survey.keyIndex found.1)) now

/-- The manifest that follows, as it is loaded once it is written. -/
def stored (c : ScanContext) (analysis : Analysis) (now : Time.Instant) (found : Found) (fresh : AutoRegion) :
    Document :=
  (next c analysis now found fresh).document.reloaded

section Stored

variable {fresh : AutoRegion}

@[simp]
theorem stored_auto : (stored c analysis now found fresh).auto = fresh := merge_auto

@[simp]
theorem stored_lastUpdated : (stored c analysis now found fresh).metadata.lastUpdated = now := merge_lastUpdated

@[simp]
theorem stored_changes : (stored c analysis now found fresh).metadata.changes =
    changeCount c analysis.log found.1 found.2 (analysis.survey.keyIndex found.1) := merge_changes

theorem stored_version : (stored c analysis now found fresh).metadata.version =
    (next c analysis now found fresh).document.metadata.version := rfl

variable {k : Kind} {d : Document}

@[simp]
theorem stored_loaded_manual : (stored c analysis now (k, .loaded d) fresh).manual = d.manual.reread := rfl

@[simp]
theorem stored_loaded_version :
    (stored c analysis now (k, .loaded d) fresh).metadata.version = d.metadata.version + 1 := rfl

end Stored

/-- The files that are written for what is found for a kind; none where nothing is settled. -/
def planned (c : ScanContext) (analysis : Analysis) (now : Time.Instant) (found : Found) : List (String × List UInt8) :=
  match AutoRegion.ofContent (analysis.survey.content found.1) with
  | .error _ => []
  | .ok fresh =>
      let d := (next c analysis now found fresh).document
      match Markdown.render found.1 d with
      | .error _ => []
      | .ok markdown => Store.filesOf found.1 d markdown (backupOf found.2)

/-- What is settled for a kind, from the region of the fresh content. -/
structure Settles (c : ScanContext) (t : FileTree) (analysis : Analysis) (now : Time.Instant) (found : Found)
    (fresh : AutoRegion) (s : Settled) : Prop where
  folder : t.find c.manifestDir = .ok .folder
  made : AutoRegion.ofContent (analysis.survey.content found.1) = .ok fresh
  held : fresh.content found.1 = .ok (analysis.survey.content found.1)
  plain : fresh.toJson.Plain 127
  markdown : ∃ markdown, planned c analysis now found =
    Store.filesOf found.1 (next c analysis now found fresh).document markdown (backupOf found.2)
  files : s.staged.files = (planned c analysis now found).map fun f => (c.manifestDir.join f.1, f.2)
  update : s.update =
    { kind := found.1
      version := (next c analysis now found fresh).document.metadata.version
      changes := changeCount c analysis.log found.1 found.2 (analysis.survey.keyIndex found.1)
      coverage := .between (analysis.survey.keyIndex found.1) (analysis.survey.keyIndex found.1)
      path := (store c).path found.1
      created := !found.2.isPresent
      rebuilt := (next c analysis now found fresh).recovered.isSome }
  issues : s.issues = rebuiltIssue (store c) found (next c analysis now found fresh) ++ ignoredIssue found ++
    droppedIssue found.1 (next c analysis now found fresh)

/-- Everything that settling can do: the index that is read back from the fresh region is the known one. -/
theorem settle_eq_ok {s : Settled} (done : settle c t analysis now found = .ok s) :
    ∃ fresh, Settles c t analysis now found fresh s := by
  obtain ⟨fresh, made, done⟩ := Outcome.bind_eq_ok.1 done
  obtain ⟨markdown, rendered, done⟩ := Outcome.bind_eq_ok.1 done
  obtain ⟨staged, stage, done⟩ := Outcome.bind_eq_ok.1 done
  obtain ⟨documented, readable, done⟩ := Outcome.bind_eq_ok.1 done
  have kind : (analysis.survey.content found.1).kind = found.1 := analysis.survey.kind_content found.1
  rw [merge_auto, ← kind] at readable
  obtain ⟨held, same, plain⟩ := AutoRegion.content_ofContent made readable
  rw [kind] at held
  have plan : planned c analysis now found =
      Store.filesOf found.1 (next c analysis now found fresh).document markdown (backupOf found.2) := by
    have rendered : Markdown.render found.1 (next c analysis now found fresh).document = .ok markdown := rendered
    rw [planned, made]
    dsimp only
    rw [rendered]
  obtain ⟨folder, files⟩ := Store.stage_eq_ok stage
  rw [same] at done
  cases done
  exact ⟨fresh, folder, made, held, plain, ⟨markdown, plan⟩, by rw [plan]; exact files, rfl, rfl⟩

/-- Content that fits is settled wherever there is a directory. -/
theorem exists_settle (folder : t.find c.manifestDir = .ok .folder) (fits : (analysis.survey.content found.1).Fits) :
    ∃ s, settle c t analysis now found = .ok s := by
  have kind : (analysis.survey.content found.1).kind = found.1 := analysis.survey.kind_content found.1
  obtain ⟨fresh, made⟩ := AutoRegion.exists_ofContent (analysis.survey.content found.1)
  have held := AutoRegion.content_of_fits fits made
  rw [kind] at held
  have read : (next c analysis now found fresh).document.auto.content found.1 =
      .ok (analysis.survey.content found.1) := by
    rw [next, merge_auto]
    exact held
  obtain ⟨markdown, rendered⟩ := Markdown.exists_render read
  obtain ⟨staged, stage⟩ := (store c).exists_stage folder found.1 (next c analysis now found fresh).document markdown
    (backupOf found.2)
  have indexed : (next c analysis now found fresh).document.auto.keyIndex found.1 =
      .ok (analysis.survey.content found.1).keyIndex := by
    rw [AutoRegion.keyIndex, read]
    rfl
  exact Outcome.exists_bind made <| Outcome.exists_bind rendered <| Outcome.exists_bind stage <|
    Outcome.exists_bind indexed ⟨_, rfl⟩

/-- The index that a settled manifest documents, once it is loaded again, is the known one. -/
theorem Settles.keyIndex {fresh : AutoRegion} {s : Settled} (settles : Settles c t analysis now found fresh s) :
    (stored c analysis now found fresh).auto.keyIndex found.1 = .ok (analysis.survey.keyIndex found.1) := by
  rw [stored_auto, AutoRegion.keyIndex, settles.held]
  rfl

/-- The view of a kind that has one is planned. -/
theorem Settles.view_mem_planned {fresh : AutoRegion} {s : Settled} {name : String}
    (settles : Settles c t analysis now found fresh s) (shown : found.1.markdownName? = some name) :
    ∃ bytes, (name, bytes) ∈ planned c analysis now found := by
  have read : (next c analysis now found fresh).document.auto.content found.1 =
      .ok (analysis.survey.content found.1) := by
    rw [next, merge_auto]
    exact settles.held
  obtain ⟨markdown, rendered⟩ := Markdown.exists_render read
  have viewed := Markdown.isSome_of_render read (analysis.survey.kind_content found.1) (by rw [shown]; rfl) rendered
  obtain ⟨text, rfl⟩ := Option.isSome_iff_exists.1 viewed
  refine ⟨Text.Utf8.encode text, ?_⟩
  rw [planned, settles.made]
  dsimp only
  rw [rendered]
  dsimp only
  rw [Store.filesOf, shown]
  exact List.mem_append_right _ (List.mem_singleton_self _)

theorem names_planned : ((planned c analysis now found).map (·.1)).Sublist found.1.names := by
  unfold planned
  split
  · exact List.nil_sublist _
  · dsimp only
    split
    · exact List.nil_sublist _
    · exact Store.filesOf_names

theorem mem_names_of_mem_planned {k : Kind} {prior : Prior} {f : String × List UInt8}
    (member : f ∈ planned c analysis now (k, prior)) : f.1 ∈ k.names :=
  names_planned.subset (List.mem_map_of_mem member)

/-- The names of the files that are written for a kind. -/
theorem name_of_mem_planned {k : Kind} {prior : Prior} {f : String × List UInt8}
    (member : f ∈ planned c analysis now (k, prior)) :
    f.1 = k.fileName ∨ k.markdownName? = some f.1 ∨
      f.1 = k.fileName ++ ".corrupt" ∧ (backupOf prior).isSome = true := by
  unfold planned at member
  split at member
  · cases member
  · dsimp only at member
    split at member
    · cases member
    · obtain front | view := List.mem_append.1 member
      · obtain copy | own := List.mem_append.1 front
        · obtain ⟨bytes, backup, rfl⟩ := Option.map_eq_some_iff.1 (Option.mem_toList.1 copy)
          exact .inr (.inr ⟨rfl, Option.isSome_of_eq_some backup⟩)
        · rw [List.mem_singleton.1 own]
          exact .inl rfl
      · obtain ⟨name, named, shown⟩ := Option.bind_eq_some_iff.1 (Option.mem_toList.1 view)
        obtain ⟨text, -, rfl⟩ := Option.map_eq_some_iff.1 shown
        exact .inr (.inl named)

end Run

end Gazetteer
