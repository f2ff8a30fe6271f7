import Gazetteer.Files.Tree
import Gazetteer.Manifest.Document

/-!
# The manifest directory

A manifest is written in two steps.  Staging settles, for a whole run, which files are written, in which order
and with which bytes, and changes nothing; committing then replaces one file after the other.  A backup of a
manifest that could not be read comes before the manifest that replaces it.
-/

namespace Gazetteer

set_option autoImplicit false

/-- The directory that holds the manifests. -/
structure Store where
  dir : Path
  deriving Repr, DecidableEq

/-- The files of one manifest, in the order in which they are written. -/
structure Staged where
  kind : Kind
  files : List (Path × List UInt8)
  deriving Repr

namespace Store

/-- The manifest of a kind. -/
def path (s : Store) (k : Kind) : Path := s.dir.join k.fileName

/-- The Markdown view of a kind, if it has one. -/
def markdownPath? (s : Store) (k : Kind) : Option Path := k.markdownName?.map s.dir.join

/-- Where the bytes of a manifest go that could not be read. -/
def backupPath (s : Store) (k : Kind) : Path := s.dir.join (k.fileName ++ ".corrupt")

/-- What the bytes of a manifest hold. -/
def priorOf (bytes : List UInt8) : Prior :=
  match Text.Utf8.decode bytes with
  | .error e => .corrupt e.message bytes
  | .ok text =>
      match Document.parse text with
      | .ok d => .loaded d
      | .error e => .corrupt e.message bytes

/-- What is found where the manifest of a kind belongs. -/
def load (s : Store) (t : FileTree) (k : Kind) : Prior :=
  match t.read (s.path k) with
  | .ok bytes => priorOf bytes
  | .error .notFound => .missing
  | .error e => .corrupt e.message []

/-- The tree with the directory in it. -/
def prepare (s : Store) (t : FileTree) : FileTree × Except FileError Unit :=
  if t.isFolder s.dir then (t, .ok ()) else t.makeFolders s.dir

/-- Settle what is written for one manifest. Nothing can be staged without the directory. -/
def stage (s : Store) (t : FileTree) (k : Kind) (d : Document) (markdown : Option String)
    (backup : Option (List UInt8)) : Except ManifestError Staged :=
  match t.find s.dir with
  | .error e => .error (.io e.message)
  | .ok (.file _) => .error (.io FileError.notFolder.message)
  | .ok .folder =>
      let copy := backup.map fun bytes => (s.backupPath k, bytes)
      let view := do return (← s.markdownPath? k, Text.Utf8.encode (← markdown))
      .ok ⟨k, copy.toList ++ [(s.path k, Text.Utf8.encode d.text)] ++ view.toList⟩

/-- Replace files one after the other, up to the first that cannot be. -/
def writeAll (t : FileTree) : List (Path × List UInt8) → FileTree × Except FileError (List Path)
  | [] => (t, .ok [])
  | (path, bytes) :: rest =>
      match t.replace path bytes with
      | .error e => (t, .error e)
      | .ok t =>
          match writeAll t rest with
          | (t, .ok written) => (t, .ok (path :: written))
          | r => r

/-- Write everything that is staged, and tell the files written. -/
def commit (t : FileTree) (staged : List Staged) : FileTree × Except ManifestError (List Path) :=
  match writeAll t (staged.flatMap (·.files)) with
  | (t, .ok written) => (t, .ok written)
  | (t, .error e) => (t, .error (.io e.message))

end Store

end Gazetteer
