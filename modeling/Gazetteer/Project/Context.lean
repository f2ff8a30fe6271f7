import Gazetteer.Project.Config
import Gazetteer.Project.ImportRules

/-!
# What a run needs to know

A context is made once from a configuration and the tree at a root, and does not change during a run.
-/

namespace Gazetteer

set_option autoImplicit false

/-- Everything that is fixed for one run. -/
structure ScanContext where
  /-- The location of the root. -/
  root : Location
  manifestDir : Path
  /-- The patterns of `excluded` as they are written. -/
  exclude : List String
  excluded : List Glob
  /-- Small letters, without the dot. -/
  extensions : List String
  respectGitignore : Bool
  staleAfterDays : Int
  strict : Bool
  imports : ImportRules
  deriving Repr

namespace ScanContext

/-- The project configuration at a root: the first file of the two that can be read. -/
def projectFile? (t : FileTree) (root : Path) : Option ProjectFile :=
  ["tsconfig.json", "jsconfig.json"].findSome? fun name =>
    (t.readText (root.join name)).toOption.bind (ProjectFile.parse? name)

/-- An exclusion pattern. -/
def exclusion (pattern : String) : Except ConfigError Glob :=
  match Glob.parse false pattern with
  | .ok tokens => .ok ⟨tokens, false⟩
  | .error fault => .error (.glob pattern fault)

/-- The context of a configuration at a root. -/
def make (t : FileTree) (root : Path) (c : Config) : Except ConfigError ScanContext :=
  match t.locate root with
  | .error _ => .error (.rootNotFound root)
  | .ok location =>
      if t.get? location != some .folder then .error (.rootNotFound root)
      else do
        let whole := FileTree.pathOf location
        return {
          root := location
          manifestDir := whole.join c.manifestDir
          exclude := c.exclude
          excluded := ← c.exclude.mapM exclusion
          extensions := c.extensions.map fun e =>
            Text.lower (String.ofList (Text.trimStart (· = '.') e.toList))
          respectGitignore := c.respectGitignore
          staleAfterDays := c.staleAfterDays
          strict := c.strict
          imports := ⟨projectFile? t whole, c.internalPrefixes⟩ }

/-- The absolute path of the root. -/
def rootPath (c : ScanContext) : Path := FileTree.pathOf c.root

/-- Whether a path relative to the root is left out. A folder is also left out by a pattern for what is
in it. -/
def isExcluded (c : ScanContext) (relative : String) (isFolder : Bool) : Bool :=
  relative != "" &&
    (c.excluded.any (·.accepts relative) ||
      (isFolder && c.excluded.any (·.accepts (relative ++ "/_"))))

/-- Whether a path has the extension of a source file. -/
def isSource (c : ScanContext) (relative : String) : Bool :=
  ((Path.mk relative).extension?).any fun e => c.extensions.contains (Text.lower e)

end ScanContext

end Gazetteer
