import Gazetteer.Files.Tree
import Gazetteer.Text.Blank

/-!
# Variables

Variables come from the process and from the nearest file of a fixed name in the current folder or one above it.
A line of the file names a variable and gives its value, in which parts may be quoted, `#` behind a blank starts a
comment and `$` stands before the name of a variable to be inserted.  A variable that is already set stays as it is,
and the first line that cannot be read ends the file.
-/

namespace Gazetteer.CommandLine

set_option autoImplicit false

/-- The values of variables. -/
abbrev Variables := String → Option String

/-! ## Values -/

/-- Where in a value a character stands; `weak` tells whether it is between double quotes. -/
inductive ValueState
  | plain (weak : Bool)
  /-- Behind a backslash. -/
  | escape (weak : Bool)
  /-- Between single quotes. -/
  | strong
  /-- In a name behind `$`. -/
  | name (weak : Bool) (letters : List Char)
  /-- In a name between braces. -/
  | braced (weak : Bool) (letters : List Char)
  /-- Behind the value. -/
  | behind
  | comment
  deriving Repr, DecidableEq

namespace ValueState

/-- What stands for a variable in a value. -/
def inserted (vars : Variables) (name : List Char) : List Char :=
  if name.isEmpty then [] else ((vars (String.ofList name)).getD "").toList

/-- Characters of a variable's name behind `$`: letters and digits. -/
def inName (c : Char) : Bool := c.isAlphanum || (0x80 ≤ c.toNat && !Text.isBlank c)

/-- What a character behind a backslash stands for. -/
def escaped? (c : Char) : Option Char :=
  if c = 'n' then some '\n'
  else if ['\\', '\x27', '"', '$', ' '].contains c then some c
  else none

/-- Go on by a character that neither a backslash nor a name precedes. -/
def stepPlain (weak : Bool) (done : List Char) (c : Char) : ValueState × List Char :=
  if c = '$' then (.name weak [], done)
  else if c = '\\' then (.escape weak, done)
  else if c = '"' then (.plain !weak, done)
  else if weak then (.plain true, done ++ [c])
  else if c = '\x27' then (.strong, done)
  else if c = ' ' || c = '\t' then (.behind, done)
  else (.plain false, done ++ [c])

/-- Go on by a character. The character that ends a name is taken as it is, unless it starts another. -/
def step (vars : Variables) : ValueState × List Char → Char → Option (ValueState × List Char)
  | (.plain weak, done), c => some (stepPlain weak done c)
  | (.escape weak, done), c => (escaped? c).map fun e => (.plain weak, done ++ [e])
  | (.strong, done), c =>
      if c = '\x27' then some (.plain false, done) else some (.strong, done ++ [c])
  | (.name weak letters, done), c =>
      if inName c then some (.name weak (letters ++ [c]), done)
      else if c = '\x7b' && letters.isEmpty then some (.braced weak [], done)
      else
        let done := done ++ inserted vars letters
        if c = '$' then some (.name weak [], done) else some (.plain weak, done ++ [c])
  | (.braced weak letters, done), c =>
      if c = '\x7d' then some (.plain weak, done ++ inserted vars letters)
      else some (.braced weak (letters ++ [c]), done)
  | (.behind, done), c =>
      if c = ' ' || c = '\t' then some (.behind, done)
      else if c = '#' then some (.comment, done)
      else none
  | (.comment, done), _ => some (.comment, done)

/-- The value at the end of its text, unless quotes or braces are open. -/
def finish (vars : Variables) : ValueState × List Char → Option String
  | (.plain false, done) | (.escape false, done) | (.behind, done) | (.comment, done) =>
      some (String.ofList done)
  | (.name false letters, done) => some (String.ofList (done ++ inserted vars letters))
  | _ => none

end ValueState

namespace Variables

/-- A value from its text. -/
def readValue (vars : Variables) (cs : List Char) : Option String :=
  (cs.foldlM (ValueState.step vars) (.plain false, [])).bind (ValueState.finish vars)

/-! ## Lines -/

/-- What a line holds. -/
inductive Line
  | blank
  | assignment (name : String) (value : List Char)
  deriving Repr, DecidableEq

/-- The name at the front of a line. -/
def readName : List Char → Option (String × List Char)
  | [] => none
  | c :: cs =>
      if c.isAlpha || c = '_' then
        let more (c : Char) : Bool := c.isAlphanum || c = '_' || c = '.'
        some (String.ofList (c :: cs.takeWhile more), Text.trimStart Text.isBlank (cs.dropWhile more))
      else none

/-- The text of a value behind `=`; a comment in its place leaves it empty. -/
def readAssigned (name : String) : List Char → Option Line
  | '=' :: cs =>
      match Text.trimStart Text.isBlank cs with
      | '#' :: _ => some (.assignment name [])
      | value => some (.assignment name value)
  | _ => none

/-- Read a line. The word `export` may stand before the name. -/
def readLine (cs : List Char) : Option Line :=
  match Text.trim Text.isBlank cs with
  | [] | '#' :: _ => some .blank
  | cs => do
      let (name, rest) ← readName cs
      if name = "export" && rest.head? ≠ some '=' then
        let (name, rest) ← readName rest
        readAssigned name rest
      else readAssigned name rest

/-- Where in a line a character stands, as far as it matters for the line's end. -/
inductive LineState
  | complete
  | blank
  | escape
  | weak
  | weakEscape
  | strong
  | strongEscape
  deriving Repr, DecidableEq

/-- The state behind a character that stands neither behind a backslash nor in quotes. -/
def LineState.ofOpening (c : Char) : LineState :=
  if c = '\\' then .escape else if c = '"' then .weak else if c = '\x27' then .strong else .complete

/-- The state behind a character. -/
def LineState.after : LineState → Char → LineState
  | .blank, c => ofOpening c
  | .escape, _ => .complete
  | .complete, c => if Text.isBlank c && c ≠ '\n' && c ≠ '\r' then .blank else ofOpening c
  | .weak, c => if c = '\\' then .weakEscape else if c = '"' then .complete else .weak
  | .weakEscape, _ => .weak
  | .strong, c => if c = '\\' then .strongEscape else if c = '\x27' then .complete else .strong
  | .strongEscape, _ => .strong

/-- The state behind a line, or the place in it where a comment starts. -/
def LineState.follow (s : LineState) (place : Nat) : List Char → LineState ⊕ Nat
  | [] => .inl s
  | c :: cs => if s = .blank && c = '#' then .inr place else (s.after c).follow (place + 1) cs

/-- Lines without those that only go on with the one before: a line goes on if it ends within quotes or behind a
backslash. A line that goes on at the end is none. -/
def joinLines (before : List Char) (s : LineState) : List (List Char) → List (List Char)
  | [] => []
  | line :: rest =>
      let cs := before ++ line
      if (Text.trimStart Text.isBlank cs).head? = some '#' then [] :: joinLines [] .complete rest
      else
        match s.follow 0 line with
        | .inr place => cs.take place :: joinLines [] .complete rest
        | .inl .complete => cs :: joinLines [] .complete rest
        | .inl s => joinLines cs s rest

/-- The lines of a file, each with its end, up to the first that is no text. -/
def textLines (bytes : List UInt8) : List (List Char) :=
  let lines := bytes.foldr (fun b lines =>
    match lines with
    | [] => [[b]]
    | line :: rest => if b = 10 then [b] :: line :: rest else (b :: line) :: rest) []
  ((lines.map fun line => (Text.Utf8.decode line).toOption).takeWhile Option.isSome).filterMap fun line =>
    line.map String.toList

/-- Set a variable that is not set yet. -/
def define (vars : Variables) (name value : String) : Variables := fun n =>
  if n = name then (vars n).or (some value) else vars n

/-- Set the variables of some lines, up to the first that cannot be read. -/
def enterLines (vars : Variables) : List (List Char) → Variables
  | [] => vars
  | line :: rest =>
      match readLine line with
      | none => vars
      | some .blank => vars.enterLines rest
      | some (.assignment name value) =>
          match vars.readValue value with
          | none => vars
          | some value => (vars.define name value).enterLines rest

/-- The mark that may stand at the front of a file. -/
def byteOrderMark : List UInt8 := [0xEF, 0xBB, 0xBF]

/-- Set the variables of a file. -/
def enterFile (vars : Variables) (bytes : List UInt8) : Variables :=
  let bytes := if byteOrderMark.isPrefixOf bytes then bytes.drop 3 else bytes
  vars.enterLines (joinLines [] .complete (textLines bytes))

/-- The name of the file. -/
def fileName : String := ".env"

/-- The nearest file from a location upwards, whose names come in reverse. -/
def nearest? (t : FileTree) (up : List String) : Option (List UInt8) :=
  match t.get? (up.reverse ++ [fileName]), up with
  | some (.file bytes), _ => some bytes
  | _, _ :: up => nearest? t up
  | _, [] => none

/-- Set the variables of the nearest file. -/
def enterNearest (vars : Variables) (t : FileTree) : Variables :=
  match nearest? t t.current.reverse with
  | some bytes => vars.enterFile bytes
  | none => vars

end Variables

end Gazetteer.CommandLine
