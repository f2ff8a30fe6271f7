import Gazetteer.Manifest.Store
import Gazetteer.Proofs.Files.Path
import Gazetteer.Proofs.Ordered.Lookup
import Gazetteer.Proofs.Outcome
import Mathlib.Data.List.TakeWhile

/-!
# Writing into a folder

What a path to a folder and a name lead to is the entry of one location (`FileTree.find_join`), so files that are
written into a folder change the entries of their own locations and nothing else (`Store.writeAll_join`,
`FileTree.get?_writeFiles_of_not_mem`).  Making folders changes no entry that is there (`FileTree.grows_makeFolders`).
-/

namespace Gazetteer

set_option autoImplicit false

namespace FileTree

variable {t t' : FileTree} {l m : Location} {e : Entry}

/-! ## Entries -/

theorem get?_put_of_ne (ne : m ≠ l) : (t.put l e).get? m = t.get? m := by
  rw [get?, get?, put, SortedMap.get?_insert, if_neg ne]

theorem ne_nil_of_not_folder (other : t.get? l ≠ some .folder) : l ≠ [] := by
  rintro rfl
  exact other rfl

theorem snoc_ne_nil (l : Location) (s : String) : l ++ [s] ≠ [] := by simp

/-! ## Following a path -/

theorem walk_cons (t : FileTree) (start : Location) (c : Component) (cs : List Component) :
    t.walk start (c :: cs) =
      match t.get? start with
      | none => .error .notFound
      | some (.file _) => .error .notFolder
      | some .folder =>
          match c with
          | .root => t.walk [] cs
          | .current => t.walk start cs
          | .parent => t.walk start.dropLast cs
          | .name s => if (t.get? (start ++ [s])).isSome then t.walk (start ++ [s]) cs else .error .notFound := rfl

theorem walk_append (t : FileTree) (cs ds : List Component) (start : Location) :
    t.walk start (cs ++ ds) = t.walk start cs >>= fun l => t.walk l ds := by
  induction cs generalizing start with
  | nil => exact (Outcome.ok_bind start fun l => t.walk l ds).symm
  | cons c cs ih =>
    rw [List.cons_append, walk_cons, walk_cons]
    cases t.get? start with
    | none => rfl
    | some e =>
      cases e with
      | file bytes => rfl
      | folder =>
        cases c with
        | root => exact ih []
        | current => exact ih start
        | parent => exact ih start.dropLast
        | name s =>
          dsimp only
          split
          · exact ih _
          · rfl

/-- What leads somewhere leads there still: folders stay folders, and nothing is gone. -/
structure Keeps (t t' : FileTree) : Prop where
  folder : ∀ l, t.get? l = some .folder → t'.get? l = some .folder
  present : ∀ l, (t.get? l).isSome = true → (t'.get? l).isSome = true
  current : t'.current = t.current

theorem Keeps.refl (t : FileTree) : t.Keeps t := ⟨fun _ => id, fun _ => id, rfl⟩

theorem Keeps.trans {t'' : FileTree} (first : t.Keeps t') (second : t'.Keeps t'') : t.Keeps t'' :=
  ⟨fun l folder => second.folder l (first.folder l folder), fun l present => second.present l (first.present l present),
    second.current.trans first.current⟩

theorem keeps_put (other : t.get? l ≠ some .folder) : t.Keeps (t.put l e) := by
  refine ⟨fun m folder => ?_, fun m present => ?_, rfl⟩
  · have ne : m ≠ l := by
      rintro rfl
      exact other folder
    rw [get?_put_of_ne ne, folder]
  · by_cases here : m = l
    · rw [here, get?_put (ne_nil_of_not_folder other)]
      rfl
    · rw [get?_put_of_ne here, present]

theorem walk_of_keeps (keeps : t.Keeps t') {start : Location} {cs : List Component}
    (led : t.walk start cs = .ok l) :
    t'.walk start cs = .ok l := by
  induction cs generalizing start with
  | nil => exact led
  | cons c cs ih =>
    rw [walk_cons] at led ⊢
    cases here : t.get? start with
    | none =>
      rw [here] at led
      cases led
    | some e =>
      rw [here] at led
      cases e with
      | file bytes => cases led
      | folder =>
        rw [keeps.folder start here]
        cases c with
        | root => exact ih led
        | current => exact ih led
        | parent => exact ih led
        | name s =>
          dsimp only at led ⊢
          split at led
          · rename_i present
            rw [if_pos (keeps.present _ present)]
            exact ih led
          · cases led

theorem locate_of_keeps (keeps : t.Keeps t') {p : Path} (led : t.locate p = .ok l) : t'.locate p = .ok l := by
  rw [locate, keeps.current]
  exact walk_of_keeps keeps led

/-- What is found is found still, if perhaps with other bytes. -/
theorem exists_find_of_keeps (keeps : t.Keeps t') {p : Path} (found : t.find p = .ok e) : ∃ e', t'.find p = .ok e' := by
  obtain ⟨l, led, rest⟩ := Outcome.bind_eq_ok.1 found
  have present : (t.get? l).isSome = true := by
    cases here : t.get? l with
    | none =>
      rw [here] at rest
      cases rest
    | some e => rfl
  obtain ⟨e', there⟩ := Option.isSome_iff_exists.1 (keeps.present l present)
  refine ⟨e', ?_⟩
  rw [find, locate_of_keeps keeps led, Outcome.ok_bind, there]
  rfl

/-- The location of a folder that a path leads to. -/
structure FolderAt (t : FileTree) (dir : Path) (l : Location) : Prop where
  led : t.locate dir = .ok l
  folder : t.get? l = some .folder

theorem FolderAt.of_keeps {dir : Path} (here : t.FolderAt dir l) (keeps : t.Keeps t') : t'.FolderAt dir l :=
  ⟨locate_of_keeps keeps here.led, keeps.folder l here.folder⟩

theorem FolderAt.unique {dir : Path} (here : t.FolderAt dir l) (there : t.FolderAt dir m) : l = m := by
  have same := here.led.symm.trans there.led
  cases same
  rfl

theorem folderAt_of_find {dir : Path} (found : t.find dir = .ok .folder) : ∃ l, t.FolderAt dir l := by
  obtain ⟨l, led, rest⟩ := Outcome.bind_eq_ok.1 found
  cases here : t.get? l with
  | none =>
    rw [here] at rest
    cases rest
  | some e =>
    rw [here] at rest
    cases rest
    exact ⟨l, led, here⟩

theorem find_of_folderAt {dir : Path} (here : t.FolderAt dir l) : t.find dir = .ok .folder := by
  rw [find, here.led, Outcome.ok_bind, here.folder]
  rfl

theorem isFolder_iff {dir : Path} : t.isFolder dir = true ↔ t.find dir = .ok .folder := by
  unfold isFolder
  split
  · rename_i found
    exact ⟨fun _ => found, fun _ => rfl⟩
  · rename_i other
    exact ⟨nofun, fun found => absurd found other⟩

/-! ## A name in a folder -/

section Join

variable {dir : Path} {s : String}

theorem locate_join (name : Path.IsName s) :
    t.locate (dir.join s) = t.locate dir >>= fun l => t.walk l [.name s] := by
  rw [locate, locate, Path.components_join name, Path.isAbsolute_join name, walk_append]

/-- A name in a folder leads to the entry below the folder's location. -/
theorem find_join (name : Path.IsName s) (here : t.FolderAt dir l) :
    t.find (dir.join s) =
      match t.get? (l ++ [s]) with
      | some e => .ok e
      | none => .error .notFound := by
  rw [find, locate_join name, here.led, Outcome.ok_bind, walk_cons, here.folder]
  dsimp only
  cases below : t.get? (l ++ [s]) with
  | none => rfl
  | some e =>
    rw [Option.isSome_some, if_pos rfl, walk, Outcome.ok_bind, below]
    rfl

theorem locate_join_of_present (name : Path.IsName s) (here : t.FolderAt dir l)
    (present : (t.get? (l ++ [s])).isSome = true) : t.locate (dir.join s) = .ok (l ++ [s]) := by
  rw [locate_join name, here.led, Outcome.ok_bind, walk_cons, here.folder]
  dsimp only
  rw [if_pos present]
  rfl

theorem read_join (name : Path.IsName s) (here : t.FolderAt dir l) :
    t.read (dir.join s) =
      match t.get? (l ++ [s]) with
      | some (.file bytes) => .ok bytes
      | some .folder => .error .isFolder
      | none => .error .notFound := by
  rw [read, find_join name here]
  cases t.get? (l ++ [s]) with
  | none => rfl
  | some e => cases e <;> rfl

theorem folderAt_of_find_join (name : Path.IsName s) (found : t.find (dir.join s) = .ok e) :
    ∃ l, t.FolderAt dir l ∧ t.get? (l ++ [s]) = some e := by
  rw [find, locate_join name] at found
  obtain ⟨m, led, rest⟩ := Outcome.bind_eq_ok.1 found
  obtain ⟨l, outer, inner⟩ := Outcome.bind_eq_ok.1 led
  rw [walk_cons] at inner
  cases folder : t.get? l with
  | none =>
    rw [folder] at inner
    cases inner
  | some e' =>
    rw [folder] at inner
    cases e' with
    | file bytes => cases inner
    | folder =>
      have here : t.FolderAt dir l := ⟨outer, folder⟩
      refine ⟨l, here, ?_⟩
      have known := find_join name here
      rw [find, locate_join name, led, Outcome.ok_bind] at known
      rw [known] at rest
      cases below : t.get? (l ++ [s]) with
      | none =>
        rw [below] at rest
        cases rest
      | some e'' =>
        rw [below] at rest
        cases rest
        rfl

theorem folderAt_of_read_join {bytes : List UInt8} (name : Path.IsName s)
    (found : t.read (dir.join s) = .ok bytes) :
    ∃ l, t.FolderAt dir l ∧ t.get? (l ++ [s]) = some (.file bytes) := by
  obtain ⟨e, held, rest⟩ := Outcome.bind_eq_ok.1 found
  cases e with
  | folder => cases rest
  | file bytes' =>
    cases rest
    exact folderAt_of_find_join name held

theorem replace_join (name : Path.IsName s) (here : t.FolderAt dir l) (bytes : List UInt8) :
    t.replace (dir.join s) bytes =
      if t.get? (l ++ [s]) = some .folder then .error .isFolder else .ok (t.put (l ++ [s]) (.file bytes)) := by
  have slot : t.slot (if (dir.join s).isAbsolute then [] else t.current) (dir.join s).components = .ok (l, some s) := by
    have led : t.walk (if dir.isAbsolute then [] else t.current) dir.components = .ok l := here.led
    rw [Path.isAbsolute_join name, Path.components_join name, FileTree.slot, List.dropLast_concat, led, Outcome.ok_bind,
      here.folder, List.getLast?_concat]
    rfl
  rw [replace, slot, Outcome.ok_bind]
  dsimp only
  cases t.get? (l ++ [s]) with
  | none => rfl
  | some e => cases e <;> rfl

end Join

/-! ## Writing files one after the other -/

/-- The tree with files in a folder, by their names. -/
def writeFiles (t : FileTree) (l : Location) (files : List (String × List UInt8)) : FileTree :=
  files.foldl (fun t f => t.put (l ++ [f.1]) (.file f.2)) t

theorem get?_writeFiles_of_not_mem {files : List (String × List UInt8)} (apart : ∀ f ∈ files, m ≠ l ++ [f.1]) :
    (t.writeFiles l files).get? m = t.get? m := by
  induction files generalizing t with
  | nil => rfl
  | cons f files ih =>
    obtain ⟨head, tail⟩ := List.forall_mem_cons.1 apart
    exact (ih tail).trans (get?_put_of_ne head)

/-- A file that was written is there; of several with one name, all hold the same. -/
theorem get?_writeFiles_of_mem {files : List (String × List UInt8)}
    (agree : ∀ f ∈ files, ∀ g ∈ files, f.1 = g.1 → f.2 = g.2) {f : String × List UInt8} (member : f ∈ files) :
    (t.writeFiles l files).get? (l ++ [f.1]) = some (.file f.2) := by
  induction files generalizing t f with
  | nil => cases member
  | cons g files ih =>
    have agree' : ∀ f ∈ files, ∀ g ∈ files, f.1 = g.1 → f.2 = g.2 := fun f inner g inner' =>
      agree f (List.mem_cons_of_mem _ inner) g (List.mem_cons_of_mem _ inner')
    by_cases later : ∃ h ∈ files, h.1 = f.1
    · obtain ⟨h, inner, same⟩ := later
      have found := ih (t := t.put (l ++ [g.1]) (.file g.2)) agree' inner
      rw [same, agree h (List.mem_cons_of_mem _ inner) f member same] at found
      exact found
    · have apart : ∀ h ∈ files, l ++ [f.1] ≠ l ++ [h.1] := fun h inner same =>
        later ⟨h, inner, List.singleton_inj.1 (List.append_cancel_left same).symm⟩
      have here : f = g := by
        refine (List.mem_cons.1 member).resolve_right fun inner => later ⟨f, inner, rfl⟩
      rw [writeFiles, List.foldl_cons]
      refine (get?_writeFiles_of_not_mem apart).trans ?_
      rw [here, get?_put (snoc_ne_nil l g.1)]

/-- No folder takes the place of a file. -/
def Free (t : FileTree) (l : Location) (files : List (String × List UInt8)) : Prop :=
  ∀ f ∈ files, t.get? (l ++ [f.1]) ≠ some .folder

instance (t : FileTree) (l : Location) (files : List (String × List UInt8)) : Decidable (t.Free l files) :=
  inferInstanceAs (Decidable (∀ f ∈ files, _))

/-- The files before the first whose place a folder takes. -/
def unblocked (t : FileTree) (l : Location) (files : List (String × List UInt8)) : List (String × List UInt8) :=
  files.takeWhile fun f => t.get? (l ++ [f.1]) ≠ some .folder

theorem unblocked_of_free {files : List (String × List UInt8)} (free : t.Free l files) :
    t.unblocked l files = files :=
  List.takeWhile_eq_self_iff.2 fun f member => decide_eq_true (free f member)

theorem free_cons {f : String × List UInt8} {files : List (String × List UInt8)} :
    t.Free l (f :: files) ↔ t.get? (l ++ [f.1]) ≠ some .folder ∧ t.Free l files := List.forall_mem_cons

theorem free_unblocked (t : FileTree) (l : Location) (files : List (String × List UInt8)) :
    t.Free l (t.unblocked l files) := by
  intro f member
  have kept := List.mem_takeWhile_imp member
  exact of_decide_eq_true kept

theorem unblocked_prefix (t : FileTree) (l : Location) (files : List (String × List UInt8)) :
    t.unblocked l files <+: files := List.takeWhile_prefix _

theorem unblocked_cons {f : String × List UInt8} {files : List (String × List UInt8)}
    (head : t.get? (l ++ [f.1]) ≠ some .folder) : t.unblocked l (f :: files) = f :: t.unblocked l files :=
  List.takeWhile_cons_of_pos (decide_eq_true head)

theorem unblocked_cons_of_folder {f : String × List UInt8} {files : List (String × List UInt8)}
    (taken : t.get? (l ++ [f.1]) = some .folder) : t.unblocked l (f :: files) = [] :=
  List.takeWhile_cons_of_neg fun free => of_decide_eq_true free taken

theorem get?_put_file_folder {f : String × List UInt8} (head : t.get? (l ++ [f.1]) ≠ some .folder) (s : String) :
    (t.put (l ++ [f.1]) (.file f.2)).get? (l ++ [s]) = some .folder ↔ t.get? (l ++ [s]) = some .folder := by
  by_cases same : l ++ [s] = l ++ [f.1]
  · rw [same, get?_put (snoc_ne_nil l f.1)]
    exact ⟨nofun, fun folder => absurd folder head⟩
  · rw [get?_put_of_ne same]

/-- Writing a file neither makes a folder nor takes one away. -/
theorem free_put {f : String × List UInt8} (head : t.get? (l ++ [f.1]) ≠ some .folder)
    {files : List (String × List UInt8)} :
    (t.put (l ++ [f.1]) (.file f.2)).Free l files ↔ t.Free l files :=
  forall₂_congr fun g _ => not_congr (get?_put_file_folder head g.1)

theorem unblocked_put {f : String × List UInt8} (head : t.get? (l ++ [f.1]) ≠ some .folder)
    (files : List (String × List UInt8)) :
    (t.put (l ++ [f.1]) (.file f.2)).unblocked l files = t.unblocked l files := by
  have same (g : String × List UInt8) : decide ((t.put (l ++ [f.1]) (.file f.2)).get? (l ++ [g.1]) ≠ some .folder) =
      decide (t.get? (l ++ [g.1]) ≠ some .folder) := decide_eq_decide.2 (not_congr (get?_put_file_folder head g.1))
  rw [unblocked, unblocked, funext same]

theorem keeps_writeFiles {files : List (String × List UInt8)} (free : t.Free l files) :
    t.Keeps (t.writeFiles l files) := by
  induction files generalizing t with
  | nil => exact .refl t
  | cons f files ih =>
    obtain ⟨head, tail⟩ := free_cons.1 free
    exact (keeps_put head).trans (ih ((free_put head).2 tail))

end FileTree

namespace Store

variable {t : FileTree} {dir : Path} {l : Location}

/-- Files that are written into a folder: all up to the first whose place a folder takes. -/
theorem writeAll_join (here : t.FolderAt dir l) {files : List (String × List UInt8)}
    (names : ∀ f ∈ files, Path.IsName f.1) :
    writeAll t (files.map fun f => (dir.join f.1, f.2)) =
      (t.writeFiles l (t.unblocked l files),
        if t.Free l files then .ok (files.map fun f => dir.join f.1) else .error .isFolder) := by
  induction files generalizing t with
  | nil => rfl
  | cons f files ih =>
    obtain ⟨name, names⟩ := List.forall_mem_cons.1 names
    rw [List.map_cons, writeAll, FileTree.replace_join name here]
    by_cases taken : t.get? (l ++ [f.1]) = some .folder
    · have blocked : ¬t.Free l (f :: files) := fun free => free f List.mem_cons_self taken
      rw [if_pos taken, if_neg blocked, FileTree.unblocked_cons_of_folder taken]
      rfl
    · rw [if_neg taken, FileTree.unblocked_cons taken]
      dsimp only
      rw [ih (here.of_keeps (FileTree.keeps_put taken)) names, FileTree.unblocked_put taken]
      by_cases free : t.Free l files
      · rw [if_pos ((FileTree.free_put taken).2 free), if_pos (FileTree.free_cons.2 ⟨taken, free⟩)]
        rfl
      · rw [if_neg (mt (FileTree.free_put taken).1 free), if_neg fun all => free (FileTree.free_cons.1 all).2]
        rfl

end Store

end Gazetteer
