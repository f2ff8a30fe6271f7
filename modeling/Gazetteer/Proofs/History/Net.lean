import Gazetteer.History.Log
import Gazetteer.Proofs.Ordered.Lookup
import Mathlib.Algebra.Group.Nat.Even
import Mathlib.Data.List.Induction
import Mathlib.Data.Set.Insert

/-!
# What the changes of a window come to

The net effect on a path is that of its own changes (`ChangeSet.get?_ofChanges`), so the automaton `Net.after` can be
followed for one path at a time.  Two things come of it.

* In a history that can happen, where only what is absent is added and only what is there is modified or deleted, the
  effects compare the paths before with the paths after (`ChangeLog.since_of_leads`).  The invariant is `Net.Tells`.
* In any other sequence the first change and the deletions at the end decide (`Net.ofAll_added`, `Net.ofAll_of_ne`).  A
  path that was deleted last is reported as one that is there exactly if it was added first and the deletions at the end
  are even in number (`ChangeLog.since_of_last`): behind an addition that is taken back, one more deletion counts as an
  addition.
-/

namespace Gazetteer

set_option autoImplicit false

variable {path other : String} {c : Change}

/-! ## The changes to one path -/

/-- The changes to a path, in their order. -/
def changesTo (path : String) (changes : List (Change × String)) : List Change :=
  changes.filterMap fun (c, p) => if p = path then some c else none

@[simp]
theorem changesTo_self (path : String) (c : Change) : changesTo path [(c, path)] = [c] := by
  simp [changesTo]

theorem changesTo_of_ne (ne : other ≠ path) (c : Change) : changesTo path [(c, other)] = [] := by
  simp [changesTo, ne]

theorem changesTo_cons (path : String) (change : Change × String) (changes : List (Change × String)) :
    changesTo path (change :: changes) = changesTo path [change] ++ changesTo path changes :=
  List.filterMap_append (l := [change])

theorem mem_changesTo {changes : List (Change × String)} : c ∈ changesTo path changes ↔ (c, path) ∈ changes := by
  simp [changesTo]

namespace Net

/-- What the net effect so far becomes by more changes. -/
def run (net : Option Net) (changes : List Change) : Option Net :=
  changes.foldl (fun net c => some (after net c)) net

/-- The net effect of all changes to a path; nothing if there are none. -/
def ofAll (changes : List Change) : Option Net := run none changes

theorem run_append (net : Option Net) (first second : List Change) :
    run net (first ++ second) = run (run net first) second := List.foldl_append

@[simp]
theorem ofAll_concat (changes : List Change) (c : Change) :
    ofAll (changes ++ [c]) = some (after (ofAll changes) c) := run_append none changes [c]

theorem ofAll_eq_none_iff {changes : List Change} : ofAll changes = none ↔ changes = [] := by
  induction changes using List.reverseRecOn with
  | nil => exact ⟨fun _ => rfl, fun _ => rfl⟩
  | append_singleton changes c _ => simp

end Net

/-! ## A window as its paths one by one -/

namespace ChangeSet

theorem get?_foldl_alter (path : String) (changes : List (Change × String)) (net : SortedMap String Net) :
    (changes.foldl (fun net (c, p) => net.alter p fun before => Net.after before c) net).get? path =
      Net.run (net.get? path) (changesTo path changes) := by
  induction changes generalizing net with
  | nil => rfl
  | cons change changes ih =>
    obtain ⟨c, other⟩ := change
    rw [List.foldl_cons, ih, changesTo_cons, Net.run_append]
    congr 1
    refine (SortedMap.get?_insert net other path _).trans ?_
    by_cases same : other = path
    · rw [same, if_pos rfl, changesTo_self]
      rfl
    · rw [if_neg (Ne.symm same), changesTo_of_ne same]
      rfl

/-- The net effect on a path is that of the changes to it. -/
theorem get?_ofChanges (changes : List (Change × String)) (path : String) :
    (ofChanges changes).paths.get? path = (Net.ofAll (changesTo path changes)).join := by
  have effect := get?_foldl_alter path changes ∅
  have drawn := SortedMap.get?_ofList_filterMap
    (changes.foldl (fun net (c, p) => net.alter p fun before => Net.after before c) (∅ : SortedMap String Net)) id path
  rw [effect] at drawn
  exact drawn.trans Option.bind_id_eq_join

theorem mem_having {s : ChangeSet} : path ∈ s.having c ↔ s.paths.get? path = some c := by
  simp [having, SortedMap.keys, SortedMap.mem_entries_iff, SortedMap.get?_filter, Option.filter_eq_some_iff]

/-- Of changes that are kept by a test of their paths the others are gone. -/
theorem mem_having_keep {s : ChangeSet} {p : String → Bool} :
    path ∈ (s.keep p).having c ↔ path ∈ s.having c ∧ p path = true := by
  rw [mem_having, mem_having, keep, SortedMap.get?_filter, Option.filter_eq_some_iff]

theorem mem_touched {s : ChangeSet} : path ∈ s.touched ↔ ∃ c, s.paths.get? path = some c ∧ c ≠ .deleted := by
  simp only [touched, SortedMap.keys, List.mem_map, Prod.exists, SortedMap.mem_entries_iff, SortedMap.get?_filter,
    Option.filter_eq_some_iff, decide_eq_true_eq]
  constructor
  · rintro ⟨_, c, held, rfl⟩
    exact ⟨c, held⟩
  · rintro ⟨c, held⟩
    exact ⟨path, c, held, rfl⟩

end ChangeSet

/-! ## Histories that can happen -/

/-- A change that can happen to the paths that are there, and the paths it leaves. -/
inductive Happens : Set String → Change × String → Set String → Prop
  | add {paths : Set String} {path : String} (absent : path ∉ paths) :
      Happens paths (.added, path) (insert path paths)
  | modify {paths : Set String} {path : String} (there : path ∈ paths) : Happens paths (.modified, path) paths
  | delete {paths : Set String} {path : String} (there : path ∈ paths) :
      Happens paths (.deleted, path) (paths \ {path})

/-- Changes that can happen one after the other, and the paths that all of them leave. -/
inductive Leads : Set String → List (Change × String) → Set String → Prop
  | done {paths : Set String} : Leads paths [] paths
  | next {paths between last : Set String} {change : Change × String} {changes : List (Change × String)}
      (first : Happens paths change between) (rest : Leads between changes last) : Leads paths (change :: changes) last

namespace Net

variable {net : Option Net} {before now : Prop} {paths between last : Set String} {change : Change × String}
  {changes : List (Change × String)}

/-- What the net effect so far tells of a path: whether it was there before, and whether it is now. -/
def Tells (before now : Prop) : Option Net → Prop
  | none => before ↔ now
  | some none => ¬before ∧ ¬now
  | some (some .added) => ¬before ∧ now
  | some (some .modified) => before ∧ now
  | some (some .deleted) => before ∧ ¬now

/-- A change to a path that can happen to it keeps what is told of it true. -/
theorem tells_after (tells : Tells before now net) (can : now ↔ c ≠ .added) :
    Tells before (c ≠ .deleted) (some (after net c)) := by
  rcases net with _ | _ | _ | _ | _ <;> cases c <;> simp_all [Tells, after]

/-- A change that happens, to the path or to another, keeps what is told of the path true. -/
theorem tells_step (tells : Tells before (path ∈ paths) net) (happens : Happens paths change between) :
    Tells before (path ∈ between) (run net (changesTo path [change])) := by
  cases happens with
  | @add changed absent =>
    by_cases same : changed = path
    · subst same
      simpa [run] using tells_after (c := .added) tells (by simpa using absent)
    · rw [changesTo_of_ne same]
      simpa [run, Ne.symm same] using tells
  | @modify changed there =>
    by_cases same : changed = path
    · subst same
      simpa [run, there] using tells_after (c := .modified) tells (by simpa using there)
    · rw [changesTo_of_ne same]
      exact tells
  | @delete changed there =>
    by_cases same : changed = path
    · subst same
      simpa [run] using tells_after (c := .deleted) tells (by simpa using there)
    · rw [changesTo_of_ne same]
      simpa [run, Ne.symm same] using tells

/-- What is told of a path is true after any history. -/
theorem tells_run (tells : Tells before (path ∈ paths) net) (leads : Leads paths changes last) :
    Tells before (path ∈ last) (run net (changesTo path changes)) := by
  induction leads generalizing net with
  | done => exact tells
  | next first _ ih =>
    rw [changesTo_cons, run_append]
    exact ih (tells_step tells first)

end Net

namespace ChangeLog

variable {log : ChangeLog} {t : Time.Instant} {before last : Set String}

/-- The changes of the commits after a time, to the second. -/
def window (log : ChangeLog) (t : Time.Instant) : List (Change × String) :=
  (log.commits.filter fun c => t.seconds < c.seconds).flatMap (·.changes)

theorem get?_since (log : ChangeLog) (t : Time.Instant) (path : String) :
    (log.since t).paths.get? path = (Net.ofAll (changesTo path (log.window t))).join :=
  ChangeSet.get?_ofChanges (log.window t) path

/-- A commit after a time changes a path. -/
def Changed (log : ChangeLog) (t : Time.Instant) (path : String) : Prop :=
  ∃ commit ∈ log.commits, t.seconds < commit.seconds ∧ ∃ c, (c, path) ∈ commit.changes

theorem changesTo_window_eq_nil_iff : changesTo path (log.window t) = [] ↔ ¬log.Changed t path := by
  simp only [List.eq_nil_iff_forall_not_mem, mem_changesTo, window, Changed, List.mem_flatMap, List.mem_filter,
    decide_eq_true_eq]
  constructor
  · rintro none ⟨commit, listed, later, c, member⟩
    exact none c ⟨commit, ⟨listed, later⟩, member⟩
  · rintro unchanged c ⟨commit, ⟨listed, later⟩, member⟩
    exact unchanged ⟨commit, listed, later, c, member⟩

/-- The net effects of a history that can happen are the difference between the paths before and after it; a path that is
in both is modified if a commit changes it, and nothing else is reported. -/
theorem since_of_leads (leads : Leads before (log.window t) last) (path : String) :
    ((log.since t).paths.get? path = some .added ↔ path ∈ last ∧ path ∉ before) ∧
      ((log.since t).paths.get? path = some .deleted ↔ path ∈ before ∧ path ∉ last) ∧
      ((log.since t).paths.get? path = some .modified ↔ path ∈ before ∧ path ∈ last ∧ log.Changed t path) ∧
      ((log.since t).paths.get? path = none ↔
        (path ∈ before ↔ path ∈ last) ∧ ¬(path ∈ before ∧ log.Changed t path)) := by
  have tells : Net.Tells (path ∈ before) (path ∈ last) (Net.ofAll (changesTo path (log.window t))) :=
    Net.tells_run Iff.rfl leads
  have changed : Net.ofAll (changesTo path (log.window t)) = none ↔ ¬log.Changed t path :=
    Net.ofAll_eq_none_iff.trans changesTo_window_eq_nil_iff
  rw [get?_since]
  generalize Net.ofAll (changesTo path (log.window t)) = net at tells changed
  rcases net with _ | _ | _ | _ | _ <;> simp only [Net.Tells] at tells <;> simp_all

/-- A file is put back after it was deleted, one comes and goes, one goes and one comes; what is older does not count. -/
def sampleLog : ChangeLog :=
  ⟨[⟨0, [(.modified, "e")]⟩, ⟨1, [(.deleted, "a")]⟩, ⟨2, [(.added, "a"), (.added, "b")]⟩,
    ⟨3, [(.deleted, "b"), (.deleted, "c"), (.added, "d")]⟩]⟩

/-- The net effects of the sample history, from two files to two files. -/
theorem since_of_leads_sample :
    ∃ last, Leads {"a", "c"} (sampleLog.window ⟨0, 0⟩) last ∧
      (sampleLog.since ⟨0, 0⟩).paths.get? "a" = some .modified ∧
      (sampleLog.since ⟨0, 0⟩).paths.get? "b" = none ∧
      (sampleLog.since ⟨0, 0⟩).paths.get? "c" = some .deleted ∧
      (sampleLog.since ⟨0, 0⟩).paths.get? "d" = some .added := by
  have leads : Leads {"a", "c"} (sampleLog.window ⟨0, 0⟩)
      (insert "d" ((insert "b" (insert "a" ({"a", "c"} \ {"a"})) \ {"b"}) \ {"c"})) :=
    .next (.delete (by simp)) <| .next (.add (by simp)) <| .next (.add (by simp)) <| .next (.delete (by simp)) <|
      .next (.delete (by simp)) <| .next (.add (by simp)) .done
  have changed : sampleLog.Changed ⟨0, 0⟩ "a" :=
    Classical.not_not.1 (mt changesTo_window_eq_nil_iff.2 (by decide))
  refine ⟨_, leads, ?_, ?_, ?_, ?_⟩
  · exact (since_of_leads leads "a").2.2.1.2 ⟨by simp, by simp, changed⟩
  · exact (since_of_leads leads "b").2.2.2.2 ⟨by simp, by simp⟩
  · exact (since_of_leads leads "c").2.1.2 ⟨by simp, by simp⟩
  · exact (since_of_leads leads "d").1.2 ⟨by simp, by simp⟩

end ChangeLog

/-! ## Any sequence of changes -/

namespace Net

variable {first : Change}

/-- How many deletions come last. -/
def deletionsAtEnd (changes : List Change) : Nat := (changes.reverse.takeWhile (· = .deleted)).length

@[simp]
theorem deletionsAtEnd_concat_deleted (changes : List Change) :
    deletionsAtEnd (changes ++ [.deleted]) = deletionsAtEnd changes + 1 := by
  simp [deletionsAtEnd]

theorem deletionsAtEnd_eq_zero {changes : List Change} (last : changes.getLast? = some c) (ne : c ≠ .deleted) :
    deletionsAtEnd changes = 0 := by
  obtain ⟨init, rfl⟩ := List.getLast?_eq_some_iff.1 last
  simp [deletionsAtEnd, ne]

/-- A path that is added first is there or not as the deletions at the end are even in number or odd. -/
theorem ofAll_added (rest : List Change) :
    ofAll (.added :: rest) = some (if Even (deletionsAtEnd (.added :: rest)) then some .added else none) := by
  induction rest using List.reverseRecOn with
  | nil => rfl
  | append_singleton rest c ih =>
    rw [← List.cons_append, ofAll_concat, ih]
    cases c with
    | deleted =>
      rw [deletionsAtEnd_concat_deleted]
      by_cases even : Even (deletionsAtEnd (.added :: rest)) <;> simp [even, Nat.even_add_one, after]
    | added =>
      rw [deletionsAtEnd_eq_zero List.getLast?_concat (by decide)]
      split <;> rfl
    | modified =>
      rw [deletionsAtEnd_eq_zero List.getLast?_concat (by decide)]
      split <;> rfl

/-- A path that was there first is deleted or modified as the last change has it. -/
theorem ofAll_of_ne (ne : first ≠ .added) (rest : List Change) :
    ofAll (first :: rest) =
      some (some (if (first :: rest).getLast? = some .deleted then .deleted else .modified)) := by
  induction rest using List.reverseRecOn with
  | nil =>
    cases first with
    | added => exact absurd rfl ne
    | modified => rfl
    | deleted => rfl
  | append_singleton rest c ih =>
    rw [← List.cons_append, ofAll_concat, ih, List.getLast?_concat]
    cases c <;> split <;> rfl

end Net

namespace ChangeLog

variable {log : ChangeLog} {t : Time.Instant}

/-- Changes to a path that leave it deleted and yet reported as added: an addition first, and an even number of
deletions at the end. -/
def Revived (changes : List Change) : Prop := changes.head? = some .added ∧ Even (Net.deletionsAtEnd changes)

/-- A path is reported as its last change has it: as one that is there behind an addition or a modification, and behind a
deletion as deleted or not at all, unless the deletion is one of an even number behind an addition. -/
theorem since_of_last (last : (changesTo path (log.window t)).getLast? = some c) :
    (c ≠ .deleted →
      (log.since t).paths.get? path = some .added ∨ (log.since t).paths.get? path = some .modified) ∧
    (c = .deleted → ¬Revived (changesTo path (log.window t)) →
      ((log.since t).paths.get? path = some .deleted ∨ (log.since t).paths.get? path = none) ∧
        path ∉ (log.since t).touched) ∧
    (c = .deleted → Revived (changesTo path (log.window t)) →
      (log.since t).paths.get? path = some .added ∧ path ∈ (log.since t).touched) := by
  rw [ChangeSet.mem_touched, get?_since]
  generalize changesTo path (log.window t) = changes at last
  cases changes with
  | nil => cases last
  | cons first rest =>
    by_cases added : first = .added
    · subst added
      rw [Net.ofAll_added, Revived]
      by_cases even : Even (Net.deletionsAtEnd (.added :: rest))
      · simp [even]
      · have deleted : c = .deleted := by
          by_contra ne
          exact even (Net.deletionsAtEnd_eq_zero last ne ▸ Even.zero)
        simp [even, deleted]
    · rw [Net.ofAll_of_ne added, last, Revived]
      by_cases deleted : c = .deleted <;> simp [added, deleted]

/-- Two parallel branches that both delete a file, one after the other. -/
def mergedLog : ChangeLog := ⟨[⟨1, [(.added, "a")]⟩, ⟨2, [(.deleted, "a")]⟩, ⟨3, [(.deleted, "a")]⟩]⟩

/-- Of two deletions behind an addition the second counts as an addition. -/
theorem since_of_last_merged :
    (changesTo "a" (mergedLog.window ⟨0, 0⟩)).getLast? = some .deleted ∧
      (mergedLog.since ⟨0, 0⟩).paths.get? "a" = some .added ∧ "a" ∈ (mergedLog.since ⟨0, 0⟩).touched := by
  have last : (changesTo "a" (mergedLog.window ⟨0, 0⟩)).getLast? = some .deleted := by decide
  have revived : Revived (changesTo "a" (mergedLog.window ⟨0, 0⟩)) := ⟨by decide, by decide⟩
  exact ⟨last, (since_of_last last).2.2 rfl revived⟩

end ChangeLog

end Gazetteer
