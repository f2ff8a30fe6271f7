import Gazetteer.Proofs.Files.Tree
import Mathlib.Data.List.Induction

/-!
# Making folders

Making a folder and those it lies in takes no entry away and adds only folders, whether or not it succeeds
(`FileTree.grows_makeFolders`), so the files are the same before and after (`Grows.sameFiles`).  A tree whose
locations are names, each in a folder, remains one (`Valid`).
-/

namespace Gazetteer

set_option autoImplicit false

namespace FileTree

variable {t t' : FileTree} {l m : Location} {e : Entry}

/-! ## What folders that are made leave alone -/

/-- Both trees have the same files, with the same bytes. -/
def SameFiles (t t' : FileTree) : Prop := ∀ l bytes, t'.get? l = some (.file bytes) ↔ t.get? l = some (.file bytes)

/-- The bytes at a location, if a file is there. -/
def bytes? (t : FileTree) (l : Location) : Option (List UInt8) :=
  match t.get? l with
  | some (.file bytes) => some bytes
  | _ => none

theorem SameFiles.bytes?_eq (same : t.SameFiles t') (l : Location) :
    t'.bytes? l = t.bytes? l := by
  have held {tree : FileTree} (bytes : List UInt8) : tree.bytes? l = some bytes ↔ tree.get? l = some (.file bytes) := by
    unfold bytes?
    split
    · rename_i here
      rw [here, Option.some.injEq, Option.some.injEq, Entry.file.injEq]
    · rename_i other
      exact ⟨nofun, fun here => absurd here (other bytes)⟩
  apply Option.ext
  intro bytes
  rw [held, held, same l bytes]

/-- One tree is another with more folders. -/
structure Grows (t t' : FileTree) : Prop where
  kept : ∀ l e, t.get? l = some e → t'.get? l = some e
  added : ∀ l e, t'.get? l = some e → t.get? l = some e ∨ e = .folder
  current : t'.current = t.current

theorem Grows.refl (t : FileTree) : t.Grows t := ⟨fun _ _ => id, fun _ _ => .inl, rfl⟩

theorem Grows.trans {t'' : FileTree} (first : t.Grows t') (second : t'.Grows t'') : t.Grows t'' := by
  refine ⟨fun l e here => second.kept l e (first.kept l e here), fun l e here => ?_, second.current.trans first.current⟩
  obtain before | folder := second.added l e here
  · exact first.added l e before
  · exact .inr folder

theorem Grows.sameFiles (grows : t.Grows t') : t.SameFiles t' := by
  intro l bytes
  refine ⟨fun here => ?_, grows.kept l _⟩
  obtain before | folder := grows.added l _ here
  · exact before
  · cases folder

theorem Grows.keeps (grows : t.Grows t') : t.Keeps t' := by
  refine ⟨fun l => grows.kept l _, fun l present => ?_, grows.current⟩
  obtain ⟨e, here⟩ := Option.isSome_iff_exists.1 present
  rw [grows.kept l e here]
  rfl

/-- Every location is made of names and lies in a folder. -/
structure Valid (t : FileTree) : Prop where
  names : ∀ l e, t.get? l = some e → ∀ s ∈ l, Path.IsName s
  parent : ∀ l s e, t.get? (l ++ [s]) = some e → t.get? l = some .folder

theorem Valid.lead (valid : t.Valid) {below : List String} (here : t.get? (l ++ below) = some .folder) :
    t.get? l = some .folder := by
  induction below using List.reverseRecOn with
  | nil => rwa [List.append_nil] at here
  | append_singleton below s ih =>
    rw [← List.append_assoc] at here
    exact ih (valid.parent _ s _ here)

theorem valid_of_entries (sound : ∀ f ∈ t.entries.entries,
    (∀ s ∈ f.1, Path.IsName s) ∧ t.get? f.1.dropLast = some .folder) : t.Valid := by
  have listed {l : Location} {e : Entry} (filled : l ≠ []) (here : t.get? l = some e) : (l, e) ∈ t.entries.entries := by
    rw [get?, if_neg filled] at here
    exact SortedMap.mem_entries_iff.2 here
  refine ⟨fun l e here => ?_, fun l s e here => ?_⟩
  · by_cases top : l = []
    · rw [top]
      exact fun s member => absurd member List.not_mem_nil
    · exact (sound _ (listed top here)).1
  · have parent := (sound _ (listed (snoc_ne_nil l s) here)).2
    rwa [List.dropLast_concat] at parent

/-- A new entry in a folder keeps a tree valid. -/
theorem valid_put (valid : t.Valid) {s : String} (name : Path.IsName s) (folder : t.get? l = some .folder)
    (other : t.get? (l ++ [s]) ≠ some .folder) : (t.put (l ++ [s]) e).Valid := by
  have keeps : t.Keeps (t.put (l ++ [s]) e) := keeps_put other
  refine ⟨fun m e' here => ?_, fun m s' e' here => ?_⟩
  · by_cases same : m = l ++ [s]
    · rw [same]
      intro s' member
      obtain inner | last := List.mem_append.1 member
      · exact valid.names l _ folder s' inner
      · rw [List.mem_singleton.1 last]
        exact name
    · rw [get?_put_of_ne same] at here
      exact valid.names m e' here
  · by_cases same : m ++ [s'] = l ++ [s]
    · rw [(List.append_inj' same rfl).1]
      exact keeps.folder l folder
    · rw [get?_put_of_ne same] at here
      exact keeps.folder m (valid.parent m s' e' here)

theorem valid_writeFiles (valid : t.Valid) (folder : t.get? l = some .folder) {files : List (String × List UInt8)}
    (names : ∀ f ∈ files, Path.IsName f.1) (free : t.Free l files) :
    (t.writeFiles l files).Valid := by
  induction files generalizing t with
  | nil => exact valid
  | cons f files ih =>
    obtain ⟨name, names⟩ := List.forall_mem_cons.1 names
    obtain ⟨head, tail⟩ := free_cons.1 free
    have keeps : t.Keeps (t.put (l ++ [f.1]) (.file f.2)) := keeps_put head
    exact ih (valid_put valid name folder head) (keeps.folder l folder) names ((free_put head).2 tail)

/-! ## Following names -/

theorem walk_names {start : Location} {names : List String} (led : t.walk start (names.map .name) = .ok l) :
    l = start ++ names := by
  induction names generalizing start with
  | nil =>
    cases led
    exact (List.append_nil l).symm
  | cons s names ih =>
    rw [List.map_cons, walk_cons] at led
    split at led
    · cases led
    · cases led
    · dsimp only at led
      split at led
      · rw [ih led, List.append_assoc]
        rfl
      · cases led

theorem Valid.walk_names (valid : t.Valid) {start : Location} {names : List String}
    (here : t.get? (start ++ names) = some .folder) : t.walk start (names.map .name) = .ok (start ++ names) := by
  induction names generalizing start with
  | nil => rw [List.append_nil]; rfl
  | cons s names ih =>
    have inner : t.get? (start ++ [s] ++ names) = some .folder := by
      rw [List.append_assoc]
      exact here
    rw [List.map_cons, walk_cons, valid.lead here]
    dsimp only
    rw [valid.lead inner, Option.isSome_some, if_pos rfl, ih inner, List.append_assoc]
    rfl

theorem locate_of_direct {p : Path} {names : Location} (direct : p.Direct names) :
    t.locate p = t.walk [] (names.map .name) := by
  rw [locate, Path.isAbsolute_of_components direct, if_pos rfl, direct]
  rfl

/-- A path of names leads to the location of these names. -/
theorem location_of_direct {p : Path} {names : Location} (direct : p.Direct names) (there : t.FolderAt p l) :
    l = names := by
  have led := there.led
  rw [locate_of_direct direct] at led
  exact walk_names led

theorem Valid.folderAt (valid : t.Valid) {p : Path} (direct : p.Direct l) (folder : t.get? l = some .folder) :
    t.FolderAt p l := by
  refine ⟨?_, folder⟩
  rw [locate_of_direct direct]
  exact valid.walk_names folder

/-! ## Making folders -/

/-- A folder that is made is a new entry, under the last name of the path, in the folder that the rest leads to. -/
theorem makeFolder_eq_ok {start : Location} {cs : List Component} (made : t.makeFolder start cs = .ok t') :
    ∃ l s, t.walk start cs.dropLast = .ok l ∧ cs.getLast? = some (.name s) ∧ t.get? l = some .folder ∧
      t.get? (l ++ [s]) = none ∧ t' = t.put (l ++ [s]) .folder := by
  obtain ⟨⟨l, last⟩, slot, rest⟩ := Outcome.bind_eq_ok.1 made
  cases last with
  | none => cases rest
  | some s =>
    dsimp only at rest
    split at rest
    · cases rest
    · rename_i absent
      cases rest
      obtain ⟨folder, led, chosen⟩ := Outcome.bind_eq_ok.1 slot
      split at chosen
      · rename_i here
        split at chosen
        · rename_i s' last
          cases chosen
          exact ⟨l, s, led, last, here, Option.not_isSome_iff_eq_none.1 absent, rfl⟩
        · cases chosen
      · cases chosen

theorem makeFoldersIn_cons (t : FileTree) (start : Location) (c : Component) (up : List Component) :
    t.makeFoldersIn start (c :: up) =
      match t.makeFolder start (c :: up).reverse with
      | .ok t => (t, .ok ())
      | .error .notFound =>
          match t.makeFoldersIn start up with
          | (t, .ok ()) =>
              match t.makeFolder start (c :: up).reverse with
              | .ok t => (t, .ok ())
              | .error .notFound => (t, .error .notFound)
              | .error .exists => (t, if t.leadsToFolder start (c :: up).reverse then .ok () else .error .exists)
              | .error e => (t, .error e)
          | r => r
      | .error .exists => (t, if t.leadsToFolder start (c :: up).reverse then .ok () else .error .exists)
      | .error e => (t, .error e) := rfl

/-- What every folder that is made preserves, making all of them preserves. -/
theorem makeFoldersIn_induct {P : FileTree → Prop} {start : Location} {reversed : List Component}
    (step : ∀ t t' cs, (∀ c ∈ cs, c ∈ reversed) → P t → t.makeFolder start cs = .ok t' → P t') (base : P t) :
    P (t.makeFoldersIn start reversed).1 := by
  induction reversed generalizing t with
  | nil => exact base
  | cons c up ih =>
    have inside : ∀ d ∈ (c :: up).reverse, d ∈ c :: up := fun d => List.mem_reverse.1
    have above : P (t.makeFoldersIn start up).1 :=
      ih (fun t t' cs listed => step t t' cs fun d member => List.mem_cons_of_mem c (listed d member)) base
    rw [makeFoldersIn_cons]
    split
    · rename_i made
      exact step t _ _ inside base made
    · split
      · rename_i outer
        rw [outer] at above
        split
        · rename_i made
          exact step _ _ _ inside above made
        · exact above
        · exact above
        · exact above
      · exact above
    · exact base
    · exact base

theorem grows_makeFolder {start : Location} {cs : List Component} (made : t.makeFolder start cs = .ok t') :
    t.Grows t' := by
  obtain ⟨l, s, -, -, -, absent, rfl⟩ := makeFolder_eq_ok made
  refine ⟨fun m e here => ?_, fun m e here => ?_, rfl⟩
  · rw [get?_put_of_ne, here]
    rintro rfl
    rw [absent] at here
    cases here
  · by_cases same : m = l ++ [s]
    · rw [same, get?_put (snoc_ne_nil l s)] at here
      cases here
      exact .inr rfl
    · rw [get?_put_of_ne same] at here
      exact .inl here

theorem grows_makeFolders (t : FileTree) (p : Path) : t.Grows (t.makeFolders p).1 :=
  makeFoldersIn_induct (fun _ _ _ _ grows made => grows.trans (grows_makeFolder made)) (.refl t)

theorem leadsToFolder_iff {start : Location} {cs : List Component} :
    t.leadsToFolder start cs = true ↔ ∃ l, t.walk start cs = .ok l ∧ t.get? l = some .folder := by
  unfold leadsToFolder
  cases t.walk start cs with
  | ok l =>
    refine decide_eq_true_iff.trans ⟨fun folder => ⟨l, rfl, folder⟩, ?_⟩
    rintro ⟨l', led, folder⟩
    cases led
    exact folder
  | error e => exact ⟨nofun, nofun⟩

/-- A path leads to the folder that is made of it. -/
theorem leadsToFolder_makeFolder {start : Location} {cs : List Component} (made : t.makeFolder start cs = .ok t') :
    t'.leadsToFolder start cs = true := by
  obtain ⟨l, s, led, last, folder, absent, rfl⟩ := makeFolder_eq_ok made
  have new : (t.put (l ++ [s]) .folder).get? (l ++ [s]) = some .folder := get?_put (snoc_ne_nil l s)
  have keeps : t.Keeps (t.put (l ++ [s]) .folder) := keeps_put (by rw [absent]; exact nofun)
  have whole : cs = cs.dropLast ++ [.name s] := (List.dropLast_append_getLast? _ last).symm
  refine leadsToFolder_iff.2 ⟨l ++ [s], ?_, new⟩
  rw [whole, walk_append, walk_of_keeps keeps led, Outcome.ok_bind, walk_cons, keeps.folder l folder]
  dsimp only
  rw [new, Option.isSome_some, if_pos rfl]
  rfl

theorem leadsToFolder_makeFoldersIn {start : Location} {reversed : List Component} (filled : reversed ≠ [])
    (done : (t.makeFoldersIn start reversed).2 = .ok ()) :
    (t.makeFoldersIn start reversed).1.leadsToFolder start reversed.reverse = true := by
  have either {b : Bool} {e : FileError} (ok : (if b = true then Except.ok () else .error e) = .ok ()) : b = true := by
    cases b with
    | true => rfl
    | false => cases ok
  cases reversed with
  | nil => exact absurd rfl filled
  | cons c up =>
    rw [makeFoldersIn_cons] at done ⊢
    split at done
    · rename_i made
      exact leadsToFolder_makeFolder made
    · split at done
      · rename_i tree outer
        split at done
        · rename_i made
          exact leadsToFolder_makeFolder made
        · cases done
        · exact either done
        · cases done
      · rename_i failed
        exact (failed _ (Prod.ext rfl done)).elim
    · exact either done
    · cases done

/-- Where making the folder of a path has succeeded, there is one. -/
theorem folderAt_of_makeFolders {p : Path} (filled : p.text ≠ "") (done : (t.makeFolders p).2 = .ok ()) :
    ∃ l, (t.makeFolders p).1.FolderAt p l := by
  have reversed : p.components.reverse ≠ [] := fun none =>
    Path.components_ne_nil filled (List.reverse_eq_nil_iff.1 none)
  have leads := leadsToFolder_makeFoldersIn reversed done
  rw [List.reverse_reverse] at leads
  obtain ⟨l, led, folder⟩ := leadsToFolder_iff.1 leads
  refine ⟨l, ?_, folder⟩
  rw [locate, (grows_makeFolders t p).current]
  exact led

theorem valid_makeFolders (valid : t.Valid) (p : Path) : (t.makeFolders p).1.Valid := by
  refine makeFoldersIn_induct (fun t t' cs listed valid made => ?_) valid
  obtain ⟨l, s, -, last, folder, absent, rfl⟩ := makeFolder_eq_ok made
  have name : Path.IsName s :=
    Path.isName_of_mem_components (List.mem_reverse.1 (listed _ (List.mem_of_getLast? last)))
  refine valid_put valid name folder ?_
  rw [absent]
  exact nofun

end FileTree

namespace Store

variable {s : Store} {t : FileTree}

theorem grows_prepare (s : Store) (t : FileTree) : t.Grows (s.prepare t).1 := by
  unfold prepare
  split
  · exact .refl t
  · exact FileTree.grows_makeFolders t s.dir

theorem valid_prepare (valid : t.Valid) : (s.prepare t).1.Valid := by
  unfold prepare
  split
  · exact valid
  · exact FileTree.valid_makeFolders valid s.dir

theorem prepare_of_folderAt {l : Location} (here : t.FolderAt s.dir l) : s.prepare t = (t, .ok ()) := by
  rw [prepare, if_pos (FileTree.isFolder_iff.2 (FileTree.find_of_folderAt here))]

end Store

end Gazetteer
