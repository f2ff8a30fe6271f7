import Gazetteer.Files.Tree
import Gazetteer.Glob.Match
import Gazetteer.Text.Integer
import Gazetteer.Toml.Parser

/-!
# Configuration

A configuration is read from a file at the root, whose keys are all optional, and then overridden by variables of
the environment.
-/

namespace Gazetteer

set_option autoImplicit false

/-- Why there is no configuration, or nothing it could be applied to. -/
inductive ConfigError
  | io (e : FileError)
  | toml (place : Toml.Place)
  | glob (pattern : String) (fault : Glob.Fault)
  | rootNotFound (root : Path)
  | invalidValue (key value : String)
  deriving Repr, DecidableEq

namespace ConfigError

/-- What lies behind the error. -/
def cause? : ConfigError → Option String
  | .io e => some e.message
  | .toml place => some place.fault
  | .glob pattern fault => some (s!"error parsing glob '{pattern}': " ++ fault.message)
  | .rootNotFound _ | .invalidValue _ _ => none

/-- How the error reads. -/
def message (e : ConfigError) : String :=
  let cause := e.cause?.getD ""
  match e with
  | .io _ => s!"IO error: {cause}"
  | .toml _ => s!"Invalid config file: {cause}"
  | .glob _ _ => s!"Invalid exclusion glob: {cause}"
  | .rootNotFound root => s!"Root path does not exist or is not a directory: {root.text}"
  | .invalidValue key value => s!"Invalid value for {key}: {value}"

end ConfigError

/-- How a repository is read and where its manifests are. -/
structure Config where
  /-- Where manifests are written; relative to the root unless absolute. -/
  manifestDir : String := ".cartograph"
  /-- Patterns of paths that are left out. -/
  exclude : List String :=
    ["**/node_modules/**", "**/dist/**", "**/build/**", "**/out/**", "**/coverage/**",
      "**/.next/**", "**/vendor/**", "**/target/**", "**/*.min.js"]
  /-- Extensions of source files. -/
  extensions : List String := ["ts", "tsx", "mts", "cts", "js", "jsx", "mjs", "cjs"]
  respectGitignore : Bool := true
  /-- A manifest that is more days old is stale. -/
  staleAfterDays : Int := 7
  /-- Whether a stale manifest is a failure. -/
  strict : Bool := false
  /-- How imports of the project's own modules start. -/
  internalPrefixes : List String := ["./", "../", "/", "@/", "~/"]
  deriving Repr, DecidableEq

namespace Config

/-- The name of the configuration file. -/
def fileName : String := "cartograph.toml"

/-- A text, or the place of what is none. -/
def textAt (place : Nat) (v : Toml) : Except Nat String :=
  match v.string? with
  | some s => .ok s
  | none => .error place

/-- A list of texts, or the place of what is none. -/
def textsAt (place : Nat) : Toml → Except Nat (List String)
  | .array items | .tables items => items.mapM fun (place, v) => textAt place v
  | _ => .error place

/-- A truth value, or the place of what is none. -/
def flagAt (place : Nat) : Toml → Except Nat Bool
  | .bool b => .ok b
  | _ => .error place

/-- An integer, or the place of what is none. -/
def integerAt (place : Nat) : Toml → Except Nat Int
  | .integer n => .ok n
  | _ => .error place

/-- Enter a member of the configuration file; unknown keys count for nothing. -/
def enter (c : Config) (key : String) (place : Nat) (v : Toml) : Except Nat Config :=
  match key with
  | "manifest_dir" => do return { c with manifestDir := ← textAt place v }
  | "exclude" => do return { c with exclude := ← textsAt place v }
  | "extensions" => do return { c with extensions := ← textsAt place v }
  | "respect_gitignore" => do return { c with respectGitignore := ← flagAt place v }
  | "stale_after_days" => do return { c with staleAfterDays := ← integerAt place v }
  | "strict" => do return { c with strict := ← flagAt place v }
  | "internal_import_prefixes" => do return { c with internalPrefixes := ← textsAt place v }
  | _ => .ok c

/-- Read a configuration from its text. -/
def parse (text : String) : Except Toml.Place Config := do
  let document ← Toml.parse text
  let add (c : Config) : String × Nat × Toml → Except Nat Config
    | (key, place, v) => c.enter key place v
  ((document.members?.getD []).foldlM add {}).mapError (Toml.Place.ofRest text.toList)

/-- Read the configuration at a root; without a file it is the default. -/
def load (t : FileTree) (root : Path) : Except ConfigError Config :=
  let path := root.join fileName
  if !t.isFile path then .ok {}
  else
    match t.readText path with
    | .error e => .error (.io e)
    | .ok text => (parse text).mapError .toml

/-- A truth value as text. -/
def flag? (s : String) : Option Bool :=
  let s := Text.lower (Text.strip s)
  if ["1", "true", "yes", "on"].contains s then some true
  else if ["0", "false", "no", "off", ""].contains s then some false
  else none

/-- An integer as text. -/
def integer? (s : String) : Option Int := Text.integer? (Text.strip s).toList

/-- The value that a reader makes of a variable, if the variable is set. -/
def override {α : Type} (env : String → Option String) (key : String) (read : String → Option α)
    (absent : α) : Except ConfigError α :=
  match env key with
  | none => .ok absent
  | some value =>
      match read value with
      | some a => .ok a
      | none => .error (.invalidValue key value)

/-- Apply the variables of an environment. -/
def applyOverrides (c : Config) (env : String → Option String) : Except ConfigError Config := do
  let manifestDir := (((env "CARTOGRAPH_MANIFEST_DIR").map Text.strip).filter (· != "")).getD
    c.manifestDir
  let globs := ((env "CARTOGRAPH_EXCLUDE").map fun globs =>
    ((Text.splitBy (· = ',') globs.toList).map fun g => Text.strip (String.ofList g)).filter
      (· != "")).getD []
  let strict ← override env "CARTOGRAPH_STRICT" flag? c.strict
  let staleAfterDays ← override env "CARTOGRAPH_STALE_DAYS" integer? c.staleAfterDays
  return { c with manifestDir, exclude := c.exclude ++ globs, strict, staleAfterDays }

end Config

end Gazetteer
