import Gazetteer.Files.Ignored
import Gazetteer.Project.Context

/-!
# Finding source files

A walk goes down from the root, folder by folder.  It leaves out what is ignored, hidden, excluded or part of the
manifest directory, and does not look into a folder that it leaves out.  What it comes by and has the extension of a
source file is a source file of the repository, under its path relative to the root.
-/

namespace Gazetteer

set_option autoImplicit false

/-- A source file of a repository. -/
structure SourceFile where
  /-- The names from the root down. -/
  names : List String
  bytes : List UInt8
  deriving Repr, DecidableEq

namespace SourceFile

/-- The path relative to the root. -/
def relative (f : SourceFile) : String := String.intercalate "/" f.names

end SourceFile

/-- Something that a walk could not look into. -/
structure ScanIssue where
  path : String
  reason : String
  deriving Repr, DecidableEq

namespace ScanIssue

/-- A folder that could not be listed. -/
def unlisted (l : Location) (e : FileError) : ScanIssue :=
  let path := (FileTree.pathOf l).text
  ⟨path, s!"{path}: IO error for operation on {path}: {e.message}"⟩

end ScanIssue

/-- What a walk comes by. -/
inductive Sight
  | file (f : SourceFile)
  | issue (i : ScanIssue)
  deriving Repr, DecidableEq

namespace Sight

/-- The file that a walk came by. -/
def file? : Sight → Option SourceFile
  | .file f => some f
  | .issue _ => none

/-- What a walk could not look into. -/
def issue? : Sight → Option ScanIssue
  | .file _ => none
  | .issue i => some i

end Sight

namespace ScanContext

/-- Whether something below the root is looked at, if the folder it is in is. -/
def admits (c : ScanContext) (rules : List RuleFile) (names : List String) (isFolder : Bool) : Bool :=
  let location := c.root ++ names
  let visible := match RuleFile.decide? rules c.respectGitignore location isFolder with
    | some verdict => verdict = .kept
    | none => !(names.getLast?.any fun name => Text.startsWith name ".")
  visible && !(FileTree.pathOf location).isUnder c.manifestDir &&
    !c.isExcluded (String.intercalate "/" names) isFolder

/-- Walk through a folder, given by its names from the root down, and at most so many folders down. -/
def walk (c : ScanContext) (rules : List RuleFile) (t : FileTree) : (depth : Nat) → (names : List String) → List Sight
  | 0, _ => []
  | depth + 1, names =>
      match t.list (c.root ++ names) with
      | .error e => [.issue (.unlisted (c.root ++ names) e)]
      | .ok items =>
          items.flatMap fun (name, e) =>
            let names := names ++ [name]
            match e with
            | .file bytes => if c.admits rules names false then [.file ⟨names, bytes⟩] else []
            | .folder => if c.admits rules names true then c.walk rules t depth names else []

/-- All that a walk from the root comes by. -/
def sights (c : ScanContext) (t : FileTree) : List Sight := c.walk (RuleFile.all t) t (t.depth + 1) []

/-- The source files of a tree, sorted by their path relative to the root. -/
def scan (c : ScanContext) (t : FileTree) : List SourceFile :=
  let found := ((c.sights t).filterMap (·.file?)).filter fun f => c.isSource f.relative
  (SortedMap.ofList (found.map fun f => (f.relative, f))).values

/-- What could not be looked into on the way. -/
def scanIssues (c : ScanContext) (t : FileTree) : List ScanIssue := (c.sights t).filterMap (·.issue?)

end ScanContext

end Gazetteer
