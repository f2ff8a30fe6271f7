import Gazetteer.Files.Tree
import Gazetteer.Glob.Match

/-!
# Ignored files

A folder may hold files with rules that say what below it is ignored.  Of the rules in one file the last that
matches decides; of the files of one kind the nearest that decides; and `.ignore` goes before `.gitignore`, which
goes before the exclusions of the repository.  Rules that a user keeps for all repositories lie outside the tree, and
are left out.
-/

namespace Gazetteer

set_option autoImplicit false

/-- What a rule says of what it matches. -/
inductive Verdict
  | ignored
  | kept
  deriving Repr, DecidableEq

/-- A line of a file with rules. -/
structure IgnoreRule where
  glob : Glob
  verdict : Verdict
  foldersOnly : Bool
  deriving Repr

namespace IgnoreRule

/-- The pattern that matches what a rule means: without a slash in it, it matches at any depth, and `/**` at
its end stands for what is inside of a folder only. -/
def pattern (anchored : Bool) (text : String) : String :=
  let loose := !anchored && !text.toList.contains '/' && text != "**"
  let text := if loose then "**/" ++ text else text
  if Text.endsWith text "/**" then text ++ "/*" else text

/-- A rule without its marks: an exclamation mark, a slash at the front and one at the end. -/
def ofMarked? (verdict : Verdict) (anchored : Bool) (cs : List Char) : Option IgnoreRule :=
  let foldersOnly := cs.getLast? = some '/'
  let cs := if foldersOnly then cs.dropLast else cs
  let cs := if foldersOnly && cs.getLast? = some '\\' then cs.dropLast else cs
  match Glob.parse true (pattern anchored (String.ofList cs)) with
  | .ok tokens => some ⟨⟨tokens, true⟩, verdict, foldersOnly⟩
  | .error _ => none

/-- The rule of a line; comments, empty lines and malformed patterns are none. -/
def parse? (line : String) : Option IgnoreRule :=
  let cs := line.toList
  if cs.head? = some '#' then none
  else
    let cs := if Text.endsWith line "\\ " then cs else Text.trimEnd Text.isBlank cs
    match cs with
    | [] => none
    | '\\' :: '!' :: _ | '\\' :: '#' :: _ => ofMarked? .ignored false (cs.drop 1)
    | '!' :: '/' :: cs => ofMarked? .kept true cs
    | '!' :: cs => ofMarked? .kept false cs
    | '/' :: cs => ofMarked? .ignored true cs
    | cs => ofMarked? .ignored false cs

/-- The lines of a file up to the first that is no text. -/
def linesOf (bytes : List UInt8) : List String :=
  let rec split : List UInt8 → List (List UInt8)
    | [] => [[]]
    | b :: bs =>
        if b = 10 then [] :: split bs
        else
          match split bs with
          | [] => [[b]]
          | line :: lines => (b :: line) :: lines
  let texts := (split bytes).map fun line => (Text.Utf8.decode line).toOption
  (texts.takeWhile (·.isSome)).filterMap id

/-- The rules in a file. A byte-order mark at its front is skipped. -/
def ofBytes (bytes : List UInt8) : List IgnoreRule :=
  match linesOf bytes with
  | [] => []
  | first :: rest =>
      let first := String.ofList (Text.trimStart (· = '\uFEFF') first.toList)
      (first :: rest).filterMap parse?

/-- What some rules say of a path. -/
def verdict? (rules : List IgnoreRule) (path : String) (isFolder : Bool) : Option Verdict :=
  (rules.reverse.find? fun r => (!r.foldersOnly || isFolder) && r.glob.accepts path).map (·.verdict)

end IgnoreRule

/-- The kinds of files with rules. -/
inductive RuleSource
  | plain
  | repository
  | exclusions
  deriving Repr, DecidableEq

/-- A file with rules, and the folder they are about. -/
structure RuleFile where
  folder : Location
  source : RuleSource
  rules : List IgnoreRule
  deriving Repr

namespace RuleFile

/-- The folder and kind of a file with rules, by the file's location in reverse. -/
def kindOf? : (reversed : List String) → Option (Location × RuleSource)
  | ".ignore" :: up => some (up.reverse, .plain)
  | ".gitignore" :: up => some (up.reverse, .repository)
  | "exclude" :: "info" :: ".git" :: up => some (up.reverse, .exclusions)
  | _ => none

/-- All files with rules in a tree. -/
def all (t : FileTree) : List RuleFile :=
  (t.filesBelow []).filterMap fun (l, bytes) =>
    (kindOf? l.reverse).map fun (folder, source) => ⟨folder, source, IgnoreRule.ofBytes bytes⟩

/-- What a file says of a location below its folder. -/
def verdict? (f : RuleFile) (l : Location) (isFolder : Bool) : Option Verdict :=
  if f.folder.isPrefixOf l && f.folder.length < l.length then
    IgnoreRule.verdict? f.rules (String.intercalate "/" (l.drop f.folder.length)) isFolder
  else none

/-- What the files of one kind say of a location: the nearest that says something. -/
def nearest? (files : List RuleFile) (source : RuleSource) (l : Location) (isFolder : Bool) :
    Option Verdict :=
  let files := (files.filter fun f => f.source = source).mergeSort fun a b =>
    b.folder.length ≤ a.folder.length
  files.findSome? fun f => f.verdict? l isFolder

/-- What all files say of a location. -/
def decide? (files : List RuleFile) (withRepository : Bool) (l : Location) (isFolder : Bool) :
    Option Verdict :=
  (nearest? files .plain l isFolder).or <|
    if withRepository then
      (nearest? files .repository l isFolder).or (nearest? files .exclusions l isFolder)
    else none

end RuleFile

end Gazetteer
