import Gazetteer.Proofs.Files.Folders

/-!
# Files in the way

A path goes from folder to folder.  If a file stands where it needs a folder (`FileTree.Barred`), then nothing below the
path is found, and the error is another than for what is merely absent (`FileTree.find_join_eq_notFolder_iff`); nor can
folders be made there, as making them takes no file away (`FileTree.Barred.of_grows`).
-/

namespace Gazetteer

set_option autoImplicit false

namespace FileTree

variable {t t' : FileTree} {start l : Location} {p dir : Path} {s : String} {cs : List Component} {c : Component}
  {e : FileError}

/-! ## How a path fails -/

theorem walk_eq_error (failed : t.walk start cs = .error e) : e = .notFound ∨ e = .notFolder := by
  induction cs generalizing start with
  | nil => cases failed
  | cons c cs ih =>
    rw [walk_cons] at failed
    split at failed
    · cases failed
      exact .inl rfl
    · cases failed
      exact .inr rfl
    · split at failed
      · exact ih failed
      · exact ih failed
      · exact ih failed
      · split at failed
        · exact ih failed
        · cases failed
          exact .inl rfl

theorem find_eq_error (failed : t.find p = .error e) : e = .notFound ∨ e = .notFolder := by
  obtain lost | ⟨l, -, rest⟩ := Outcome.bind_eq_error.1 failed
  · exact walk_eq_error lost
  · split at rest
    · cases rest
    · cases rest
      exact .inl rfl

theorem read_eq_notFound_iff : t.read p = .error .notFound ↔ t.find p = .error .notFound := by
  rw [read, Outcome.bind_eq_error]
  refine or_iff_left ?_
  rintro ⟨e, -, rest⟩
  cases e <;> cases rest

/-- One more step fails for want of a folder exactly behind a file. -/
theorem walk_singleton_eq_notFolder_iff :
    t.walk l [c] = .error .notFolder ↔ ∃ bytes, t.get? l = some (.file bytes) := by
  rw [walk_cons]
  cases t.get? l with
  | none => simp
  | some e =>
    cases e with
    | file bytes => simp
    | folder =>
      cases c with
      | root | current | parent => simp [walk]
      | name s =>
        dsimp only
        split <;> simp [walk]

/-- A path fails for want of a folder exactly if the front of it leads to a file. -/
theorem walk_concat_eq_notFolder_iff :
    t.walk start (cs ++ [c]) = .error .notFolder ↔
      ∃ lead, lead <+: cs ∧ ∃ l bytes, t.walk start lead = .ok l ∧ t.get? l = some (.file bytes) := by
  induction cs using List.reverseRecOn generalizing c with
  | nil =>
    rw [List.nil_append, walk_singleton_eq_notFolder_iff]
    constructor
    · rintro ⟨bytes, here⟩
      exact ⟨[], List.prefix_rfl, start, bytes, rfl, here⟩
    · rintro ⟨lead, front, l, bytes, led, here⟩
      rw [List.prefix_nil.1 front] at led
      cases led
      exact ⟨bytes, here⟩
  | append_singleton cs d ih =>
    rw [walk_append, Outcome.bind_eq_error, ih]
    constructor
    · rintro (⟨lead, front, file⟩ | ⟨l, led, last⟩)
      · exact ⟨lead, front.trans (List.prefix_append cs [d]), file⟩
      · obtain ⟨bytes, here⟩ := walk_singleton_eq_notFolder_iff.1 last
        exact ⟨cs ++ [d], List.prefix_rfl, l, bytes, led, here⟩
    · rintro ⟨lead, front, l, bytes, led, here⟩
      obtain rfl | front := List.prefix_concat_iff.1 front
      · exact .inr ⟨l, led, walk_singleton_eq_notFolder_iff.2 ⟨bytes, here⟩⟩
      · exact .inl ⟨lead, front, l, bytes, led, here⟩

/-! ## A file in the way -/

/-- A file is in the way of a path: the path, or the front of it, leads to one. -/
def Barred (t : FileTree) (p : Path) : Prop :=
  ∃ lead, lead <+: p.components ∧
    ∃ l bytes, t.walk (if p.isAbsolute then [] else t.current) lead = .ok l ∧ t.get? l = some (.file bytes)

theorem find_join_eq_notFolder_iff (name : Path.IsName s) : t.find (dir.join s) = .error .notFolder ↔ t.Barred dir := by
  have located : t.find (dir.join s) = .error .notFolder ↔ t.locate (dir.join s) = .error .notFolder := by
    refine Outcome.bind_eq_error.trans (or_iff_left ?_)
    rintro ⟨l, -, rest⟩
    split at rest <;> cases rest
  rw [located, locate, Path.components_join name, Path.isAbsolute_join name]
  exact walk_concat_eq_notFolder_iff

theorem not_folderAt_of_barred (barred : t.Barred dir) : ¬t.FolderAt dir l := by
  intro here
  have name : Path.IsName "x" := by decide
  have failed := (find_join_eq_notFolder_iff name).2 barred
  rw [find_join name here] at failed
  split at failed <;> cases failed

/-- More folders do not clear the way. -/
theorem Barred.of_grows (barred : t.Barred p) (grows : t.Grows t') : t'.Barred p := by
  obtain ⟨lead, front, l, bytes, led, here⟩ := barred
  rw [← grows.current] at led
  exact ⟨lead, front, l, bytes, walk_of_keeps grows.keeps led, grows.kept l _ here⟩

theorem read_join_of_barred (barred : t.Barred dir) (name : Path.IsName s) :
    t.read (dir.join s) = .error .notFolder := by
  rw [read, (find_join_eq_notFolder_iff name).2 barred]
  rfl

/-- Where there is no folder and no file in the way, nothing is found. -/
theorem read_join_of_away (away : ∀ l, ¬t.FolderAt dir l) (clear : ¬t.Barred dir) (name : Path.IsName s) :
    t.read (dir.join s) = .error .notFound := by
  cases found : t.find (dir.join s) with
  | ok e =>
    obtain ⟨l, here, -⟩ := folderAt_of_find_join name found
    exact absurd here (away l)
  | error e =>
    obtain rfl | rfl := find_eq_error found
    · rw [read, found]
      rfl
    · exact absurd ((find_join_eq_notFolder_iff name).1 found) clear

end FileTree

end Gazetteer
