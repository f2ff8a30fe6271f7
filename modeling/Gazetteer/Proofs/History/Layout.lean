import Gazetteer.History.Log
import Gazetteer.Proofs.Text.Pieces
import Gazetteer.Proofs.Time.Timestamp

/-!
# Logs as they are written

A log has a record for each commit: U+001E, the time in seconds and, if anything changed, a line break, NUL and then the
status and the path of each change, both ended by NUL (`ChangeLog.Record.text`).  One more NUL may stand between
records.  What is written so is read back as its commits, whatever else the paths hold (`ChangeLog.parse_written`).
The reader keeps in step because a status and its path are two pieces of the text, known status or not, and it passes
over none but the empty pieces around the entries (`ChangeLog.readChanges_entries`).
-/

namespace Gazetteer.ChangeLog

set_option autoImplicit false

/-! ## Records -/

/-- What a log says of a path. -/
inductive Status
  | added
  | modified
  | deleted
  /-- A file became something else, such as a link. -/
  | retyped
  /-- A letter that stands for no change. -/
  | unknown (letter : Char) (strange : letter ∉ ['A', 'C', 'D', 'M', 'R', 'T'])
      (whole : letter ∉ ['\n', mark, stop])

namespace Status

/-- The letter of a status. -/
def letter : Status → Char
  | .added => 'A'
  | .modified => 'M'
  | .deleted => 'D'
  | .retyped => 'T'
  | .unknown letter _ _ => letter

/-- The change that a status stands for. -/
def change? : Status → Option Change
  | .added => some .added
  | .modified => some .modified
  | .deleted => some .deleted
  | .retyped => some .modified
  | .unknown _ _ _ => none

end Status

/-- A status and the path it is about. -/
structure Entry where
  status : Status
  path : String
  whole : ∀ c ∈ path.toList, c ≠ mark ∧ c ≠ stop

namespace Entry

/-- An entry as it is written. -/
def text (e : Entry) : List Char := e.status.letter :: stop :: (e.path.toList ++ [stop])

/-- The change of an entry, if its status stands for one. -/
def change? (e : Entry) : Option (Change × String) := e.status.change?.map fun c => (c, e.path)

end Entry

/-- A commit as a log has it. -/
structure Record where
  seconds : Int
  range : Time.Instant.inRange ⟨seconds, 0⟩ = true
  entries : List Entry
  /-- Whether one more NUL follows. -/
  spaced : Bool

namespace Record

/-- The time in decimal digits. -/
def time (r : Record) : List Char := (toString r.seconds).toList

/-- What stands behind the time. -/
def body (r : Record) : List Char := if r.entries.isEmpty then [] else '\n' :: stop :: r.entries.flatMap Entry.text

/-- The NUL that may follow. -/
def space (r : Record) : List Char := if r.spaced then [stop] else []

/-- What stands behind the mark. -/
def inner (r : Record) : List Char := r.time ++ (r.body ++ r.space)

/-- A record as it is written. -/
def text (r : Record) : List Char := mark :: r.inner

/-- The commit of a record. -/
def commit (r : Record) : Commit := ⟨r.seconds, r.entries.filterMap Entry.change?⟩

end Record

/-! ## Statuses -/

namespace Status

theorem ofStatus?_letter (s : Status) : Change.ofStatus? [s.letter] = s.change? := by
  cases s with
  | added | modified | deleted | retyped => rfl
  | unknown letter strange whole =>
    simp only [List.mem_cons, List.not_mem_nil, or_false, not_or] at strange
    simp [Change.ofStatus?, Status.letter, Status.change?, strange]

theorem letter_whole (s : Status) : s.letter ∉ ['\n', mark, stop] := by
  cases s with
  | added | modified | deleted | retyped => decide
  | unknown letter strange whole => exact whole

end Status

/-! ## Entries -/

theorem readChanges_nil_cons (fields : List (List Char)) : readChanges ([] :: fields) = readChanges fields := by
  cases fields <;> rfl

/-- The pieces of an entry are its status and its path. -/
theorem splitBy_entry (e : Entry) (rest : List Char) :
    Text.splitBy (· = stop) (e.text ++ rest) =
      [e.status.letter] :: e.path.toList :: Text.splitBy (· = stop) rest := by
  have letter : ∀ c ∈ [e.status.letter], decide (c = stop) = false := by
    rw [List.forall_mem_singleton, decide_eq_false_iff_not]
    exact fun same => e.status.letter_whole (by simp [same])
  have path : ∀ c ∈ e.path.toList, decide (c = stop) = false := fun c member =>
    decide_eq_false (e.whole c member).2
  have form : e.text ++ rest = [e.status.letter] ++ stop :: (e.path.toList ++ stop :: rest) := by
    simp [Entry.text]
  rw [form, Text.splitBy_append_cons (decide_eq_true rfl), Text.splitBy_append_cons (decide_eq_true rfl),
    Text.splitBy_of_whole letter, Text.splitBy_of_whole path]
  rfl

theorem readChanges_entry (e : Entry) (fields : List (List Char)) :
    readChanges ([e.status.letter] :: e.path.toList :: fields) =
      (readChanges fields).map fun changes => e.change?.toList ++ changes := by
  have letter : ∀ c ∈ [e.status.letter], decide (c = '\n') = false := by
    rw [List.forall_mem_singleton, decide_eq_false_iff_not]
    exact fun same => e.status.letter_whole (by simp [same])
  rw [readChanges, Text.trim_of_whole letter]
  dsimp only
  rw [e.status.ofStatus?_letter, Entry.change?]
  cases readChanges fields with
  | error _ => rfl
  | ok changes => cases e.status.change? <;> simp [Except.map]

/-- Entries are read one by one, up to pieces that are empty. -/
theorem readChanges_entries (entries : List Entry) {rest : List Char}
    (empty : readChanges (Text.splitBy (· = stop) rest) = .ok []) :
    readChanges (Text.splitBy (· = stop) (entries.flatMap Entry.text ++ rest)) =
      .ok (entries.filterMap Entry.change?) := by
  induction entries with
  | nil => exact empty
  | cons e entries ih =>
    rw [List.flatMap_cons, List.append_assoc, splitBy_entry, readChanges_entry, ih, List.filterMap_cons]
    cases e.change? <;> rfl

/-! ## Commits -/

namespace Record

theorem readTime_time (r : Record) : readTime r.time = .ok r.seconds := by
  obtain ⟨⟨least, most⟩, -⟩ := Time.Instant.inRange_iff.1 r.range
  dsimp only at least most
  have dark : ∀ c ∈ r.time, Text.isBlank c = false := by
    intro c member
    obtain rfl | digit := digit_of_mem_toString r.seconds c member
    · decide
    · exact Text.isBlank_of_isDigit digit
  rw [readTime, Text.trim_of_whole dark, time, Text.integer?_toString (by omega) (by omega)]
  dsimp only
  rw [r.range, if_pos rfl]

/-- A time holds neither marks nor what ends a line. -/
theorem time_whole (r : Record) : ∀ c ∈ r.time, c ∉ ['\n', mark, stop] := by
  intro c member
  obtain rfl | digit := digit_of_mem_toString r.seconds c member
  · decide
  · intro among
    simp only [List.mem_cons, List.not_mem_nil, or_false] at among
    obtain rfl | rfl | rfl := among <;> exact absurd digit (by decide)

theorem readChanges_space (r : Record) : readChanges (Text.splitBy (· = stop) r.space) = .ok [] := by
  rw [space]
  cases r.spaced <;> rfl

/-- The time is cut off where the body or the space begins, and behind the cut are entries between empty pieces. -/
theorem exists_cut (r : Record) : ∃ rest,
    (Text.cutAt? (fun c => c = '\n' || c = stop) r.inner).getD (r.inner, []) = (r.time, rest) ∧
      readChanges (Text.splitBy (· = stop) rest) = .ok (r.entries.filterMap Entry.change?) := by
  have line : ∀ c ∈ r.time, (decide (c = '\n') || decide (c = stop)) = false := by
    intro c member
    have apart := r.time_whole c member
    simp only [List.mem_cons, not_or] at apart
    simp [apart.1, apart.2.2.1]
  have space := r.readChanges_space
  rw [inner, body]
  cases entries : r.entries with
  | nil =>
    refine ⟨[], ?_, rfl⟩
    rw [List.isEmpty_nil, if_pos rfl, List.nil_append, Record.space]
    cases r.spaced with
    | true => rw [if_pos rfl, Text.cutAt?_append_cons (c := stop) rfl line, Option.getD_some]
    | false => rw [if_neg Bool.false_ne_true, List.append_nil, Text.cutAt?_of_whole line, Option.getD_none]
  | cons e others =>
    refine ⟨stop :: ((e :: others).flatMap Entry.text ++ r.space), ?_, ?_⟩
    · rw [List.isEmpty_cons, if_neg Bool.false_ne_true, List.cons_append, Text.cutAt?_append_cons (c := '\n') rfl line,
        Option.getD_some, List.cons_append]
    · rw [Text.splitBy, if_pos (decide_eq_true rfl), readChanges_nil_cons, readChanges_entries (e :: others) space]

theorem readCommit_inner (r : Record) : readCommit r.inner = .ok r.commit := by
  obtain ⟨rest, cut, changes⟩ := r.exists_cut
  rw [readCommit, cut]
  dsimp only
  rw [r.readTime_time, Outcome.ok_bind, changes]
  rfl

/-- There is no mark behind the first. -/
theorem inner_whole (r : Record) : ∀ c ∈ r.inner, decide (c = mark) = false := by
  have entry (e : Entry) : ∀ c ∈ e.text, c ≠ mark := by
    intro c member
    have letter : e.status.letter ≠ mark := fun same => e.status.letter_whole (by simp [same])
    simp only [Entry.text, List.mem_cons, List.mem_append, List.not_mem_nil, or_false] at member
    obtain rfl | rfl | path | rfl := member
    · exact letter
    · decide
    · exact (e.whole c path).1
    · decide
  intro c member
  rw [decide_eq_false_iff_not]
  obtain time | member := List.mem_append.1 member
  · exact fun same => r.time_whole c time (by simp [same])
  · obtain body | space := List.mem_append.1 member
    · rw [Record.body] at body
      split at body
      · cases body
      · simp only [List.mem_cons, List.mem_flatMap] at body
        obtain rfl | rfl | ⟨e, -, inside⟩ := body
        · decide
        · decide
        · exact entry e c inside
    · rw [Record.space] at space
      split at space
      · rw [List.mem_singleton.1 space]
        decide
      · cases space

/-- What stands behind the mark starts with the time, so nothing is trimmed of it. -/
theorem trimStart_inner (r : Record) :
    Text.trimStart (fun c => c = '\n' || c = stop) r.inner = r.inner ∧ r.inner.isEmpty = false := by
  have some : r.time ≠ [] := by
    rw [time]
    obtain negative | nonnegative := Int.lt_or_le r.seconds 0
    · rw [toList_toString_of_neg negative]
      exact List.cons_ne_nil _ _
    · rw [toList_toString_of_nonneg nonnegative]
      exact Nat.toDigits_ne_nil
  obtain ⟨c, cs, time⟩ := List.exists_cons_of_ne_nil some
  have apart := r.time_whole c (by rw [time]; exact List.mem_cons_self)
  simp only [List.mem_cons, not_or] at apart
  rw [inner, time, List.cons_append]
  exact ⟨by simp [Text.trimStart, apart.1, apart.2.2.1], rfl⟩

end Record

/-! ## Logs -/

/-- A log as it is written. -/
def written (records : List Record) : String := String.ofList (records.flatMap Record.text)

/-- Each mark leads a record, and before the first there is nothing. -/
theorem splitBy_records (records : List Record) :
    Text.splitBy (· = mark) (records.flatMap Record.text) = [] :: records.map Record.inner := by
  have led : records.flatMap Record.text = (records.map Record.inner).flatMap (mark :: ·) := by
    rw [List.flatMap_map]
    rfl
  rw [led]
  refine Text.splitBy_led (decide_eq_true rfl) [] nofun fun piece listed => ?_
  obtain ⟨r, -, rfl⟩ := List.mem_map.1 listed
  exact r.inner_whole

/-- Nothing is trimmed of the pieces, and only the first is empty. -/
theorem filter_pieces (records : List Record) :
    (([] :: records.map Record.inner).map (Text.trimStart fun c => c = '\n' || c = stop)).filter (!·.isEmpty) =
      records.map Record.inner := by
  show ((records.map Record.inner).map _).filter _ = _
  rw [List.map_map, List.map_congr_left fun r _ => r.trimStart_inner.1, List.filter_eq_self]
  intro piece listed
  obtain ⟨r, -, rfl⟩ := List.mem_map.1 listed
  rw [r.trimStart_inner.2]
  rfl

/-- A log that is written is read as its commits, in their order. -/
theorem parse_written (records : List Record) : parse (written records) = .ok ⟨records.map Record.commit⟩ := by
  have each : (records.map Record.inner).mapM readCommit = .ok (records.map Record.commit) := by
    rw [Outcome.mapM_eq_ok, List.forall₂_map_left_iff, List.forall₂_map_right_iff, List.forall₂_same]
    exact fun r _ => r.readCommit_inner
  rw [parse, written, String.toList_ofList, splitBy_records, filter_pieces, each, Outcome.ok_bind]
  rfl

theorem whole_of_all {path : String} (all : (path.toList.all fun c => c ≠ mark && c ≠ stop) = true) :
    ∀ c ∈ path.toList, c ≠ mark ∧ c ≠ stop := by
  intro c member
  have apart := List.all_eq_true.1 all c member
  rw [Bool.and_eq_true, decide_eq_true_eq, decide_eq_true_eq] at apart
  exact apart

/-- Two records: the first with a file that became a link, a letter that stands for no change and one more NUL, the
second without changes. -/
def sampleRecords : List Record :=
  [{ seconds := 1767225600
     range := by decide
     entries := [⟨.added, "src/a file.ts", whole_of_all rfl⟩, ⟨.retyped, "-docs\né", whole_of_all rfl⟩,
       ⟨.unknown 'X' (by decide) (by decide), "lost", whole_of_all rfl⟩, ⟨.deleted, "old/b.ts", whole_of_all rfl⟩]
     spaced := true },
   { seconds := -1, range := by decide, entries := [], spaced := false }]

theorem parse_written_sample :
    written sampleRecords = "\x1e1767225600\n\x00A\x00src/a file.ts\x00T\x00-docs\né\x00X\x00lost\x00" ++
        "D\x00old/b.ts\x00\x00\x1e-1" ∧
      parse (written sampleRecords) =
        .ok ⟨[⟨1767225600, [(.added, "src/a file.ts"), (.modified, "-docs\né"), (.deleted, "old/b.ts")]⟩, ⟨-1, []⟩]⟩ := by
  refine ⟨by decide +kernel, ?_⟩
  rw [parse_written]
  rfl

end Gazetteer.ChangeLog
