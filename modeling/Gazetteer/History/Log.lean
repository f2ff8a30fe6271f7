import Gazetteer.History.Change
import Gazetteer.Text.Blank
import Gazetteer.Text.Integer
import Gazetteer.Time.Instant

/-!
# Change logs

A log lists commits, the oldest first.  In its text each begins with the character U+001E and a line that holds
its time in seconds; statuses and paths follow, each ended by NUL.  A path may hold any other character.
-/

namespace Gazetteer

set_option autoImplicit false

/-- A commit: its time in seconds and what it changes. -/
structure Commit where
  seconds : Int
  changes : List (Change × String)
  deriving Repr, DecidableEq

/-- Commits, the oldest first. -/
structure ChangeLog where
  commits : List Commit
  deriving Repr, DecidableEq

/-- What is wrong with the text of a log. -/
inductive LogError
  | badTime (line : String)
  | timeOutOfRange (seconds : Int)
  | noPath (status : String)
  deriving Repr, DecidableEq

/-- How the error reads. -/
def LogError.message (e : LogError) : String :=
  "unexpected git log output: " ++
    match e with
    | .badTime line => s!"bad commit timestamp '{line}'"
    | .timeOutOfRange seconds => s!"timestamp out of range: {seconds}"
    | .noPath status => s!"status '{status}' without a path"

/-- The change that a status stands for, by its first letter. A copy adds its path; a change of type and a
new name modify it. -/
def Change.ofStatus? : List Char → Option Change
  | [] => none
  | c :: _ =>
      if c = 'A' || c = 'C' then some .added
      else if c = 'M' || c = 'T' || c = 'R' then some .modified
      else if c = 'D' then some .deleted
      else none

namespace ChangeLog

/-- The character at the start of a commit. -/
def mark : Char := '\x1e'

/-- The character at the end of a status and of a path. -/
def stop : Char := '\x00'

/-- The changes in the fields of a commit. A status that is not known is skipped with its path. -/
def readChanges : List (List Char) → Except LogError (List (Change × String))
  | [] => .ok []
  | [last] =>
      match Text.trim (· = '\n') last with
      | [] => .ok []
      | status => .error (.noPath (String.ofList status))
  | field :: path :: rest =>
      match Text.trim (· = '\n') field with
      | [] => readChanges (path :: rest)
      | status => do
          let changes ← readChanges rest
          match Change.ofStatus? status with
          | some c => return (c, String.ofList path) :: changes
          | none => return changes

/-- The time in the first line of a commit. -/
def readTime (line : List Char) : Except LogError Int :=
  match Text.integer? (Text.trim Text.isBlank line) with
  | none => .error (.badTime (String.ofList line))
  | some seconds =>
      if Time.Instant.inRange ⟨seconds, 0⟩ then .ok seconds else .error (.timeOutOfRange seconds)

/-- A commit from its text behind the mark. -/
def readCommit (cs : List Char) : Except LogError Commit := do
  let (line, body) := (Text.cutAt? (fun c => c = '\n' || c = stop) cs).getD (cs, [])
  let seconds ← readTime line
  return ⟨seconds, ← readChanges (Text.splitBy (· = stop) body)⟩

/-- Read a log. -/
def parse (text : String) : Except LogError ChangeLog := do
  let records := (Text.splitBy (· = mark) text.toList).map (Text.trimStart fun c => c = '\n' || c = stop)
  return ⟨← (records.filter (!·.isEmpty)).mapM readCommit⟩

/-- The net effect of the commits after a time, to the second. -/
def since (log : ChangeLog) (t : Time.Instant) : ChangeSet :=
  .ofChanges ((log.commits.filter fun c => t.seconds < c.seconds).flatMap (·.changes))

end ChangeLog

end Gazetteer
