import Gazetteer.CommandLine.Run
import Std.Time.DateTime.Timestamp

/-!
# The program

The outer layer of the command line.  It copies the part of the file system that a command can look at into a file
tree, runs the command on it, and writes back what the command changed.
-/

namespace Gazetteer.Outer

set_option autoImplicit false

/-- Locations with what is there. -/
abbrev Finds := List (Location × Entry)

/-- A location as text. -/
def textOf (l : Location) : String := (FileTree.pathOf l).text

/-- The location that a path leads to, if something is there. -/
def resolve? (path : String) : IO (Option Location) := do
  try
    let whole ← IO.FS.realPath path
    return some ((Path.pieces whole.toString).filter (· ≠ ""))
  catch _ => return none

/-- A file, if it can be read. -/
def file (l : Location) : IO Finds := do
  try return [(l, .file (← IO.FS.readBinFile (textOf l)).toList)] catch _ => return []

/-- The folders from the top to a location. -/
def foldersTo (l : Location) : Finds :=
  (List.range l.length).map fun n => (l.take (n + 1), .folder)

/-- Files that hold rules for what is below the folder they are in. -/
def ruleFiles : List (List String) := [[".gitignore"], [".ignore"], [".git", "info", "exclude"]]

/-- A folder, those it is in, and the rules and variables in them. -/
def above (l : Location) : IO Finds := do
  let mut finds := foldersTo l
  for n in List.range (l.length + 1) do
    for name in [CommandLine.Variables.fileName] :: ruleFiles do
      let place := l.take n ++ name
      let found ← file place
      if !found.isEmpty then finds := found ++ foldersTo place.dropLast ++ finds
  return finds

/-- What is below a folder, without links. Of files that hold no rules only the names are read. -/
partial def below (l : Location) : IO Finds := do
  let mut finds := []
  for item in ← (← IO.FS.realPath (textOf l)).readDir do
    let place := l ++ [item.fileName]
    match (← item.path.symlinkMetadata).type with
    | .dir => finds := (place, .folder) :: (← below place) ++ finds
    | .file =>
        let found ← if ruleFiles.any (·.getLast? = some item.fileName) then file place else pure []
        finds := found ++ (place, .file []) :: finds
    | _ => pure ()
  return finds

/-- What is at the top of a repository and matters to every command. -/
def settings (l : Location) : IO Finds := do
  let names := [Config.fileName, Package.fileName, Declared.cargoFile, "tsconfig.json", "jsconfig.json"]
  return (← names.mapM fun name => file (l ++ [name])).flatten

/-- Everything that decides how a repository is read. -/
def repository (root : String) : IO Finds := do
  match ← resolve? root with
  | none => return []
  | some l =>
      if ← (← IO.FS.realPath root).isDir then
        return (← settings l) ++ (← above l) ++ (← below l)
      else return foldersTo l.dropLast ++ (← file l)

/-- The manifests in a directory, and the folders that lead to it as far as they are there. -/
def manifests (dir : Path) : IO Finds := do
  let pieces := Path.pieces dir.text
  let mut finds := []
  for n in List.range (pieces.length + 1) do
    if let some l ← resolve? (String.intercalate "/" (pieces.take n)) then
      if ← (← IO.FS.realPath (textOf l)).isDir then finds := foldersTo l ++ finds
      else finds := (← file l) ++ foldersTo l.dropLast ++ finds
  let s : Store := ⟨dir⟩
  for k in Kind.all do
    for p in [s.path k, s.backupPath k] ++ (s.markdownPath? k).toList do
      if let some l ← resolve? p.text then
        let found ← file l
        finds := (if found.isEmpty then foldersTo l else found) ++ finds
  return finds

/-- The source files of a repository. -/
def sources (c : ScanContext) (t : FileTree) : IO Finds := do
  return (← (c.scan t).mapM fun f => file (c.root ++ f.names)).flatten

/-- A tree of finds; of several for a location the first counts. -/
def treeOf (current : Location) (finds : Finds) : FileTree :=
  let sorted := finds.mergeSort fun a b => (compare b.1 a.1).isLE
  sorted.foldl (fun t (l, e) => if (t.get? l).isSome then t else t.put l e) { current }

/-- Names that variables may be asked for under. -/
def variableNames (finds : Finds) : List String :=
  let texts := finds.filterMap fun (l, e) =>
    match e with
    | .file bytes =>
        if l.getLast? = some CommandLine.Variables.fileName then (Text.Utf8.decode bytes).toOption else none
    | .folder => none
  let cut (p : Char → Bool) : List String := texts.flatMap fun s =>
    (Text.splitBy (fun c => !p c) s.toList).map String.ofList
  ["CARTOGRAPH_MANIFEST_DIR", "CARTOGRAPH_EXCLUDE", "CARTOGRAPH_STRICT", "CARTOGRAPH_STALE_DAYS",
    "NO_COLOR", "CLICOLOR", "CLICOLOR_FORCE"] ++
    cut Char.isAlphanum ++ cut fun c => c.isAlphanum || c = '_' || c = '.'

/-- The variables of the process. -/
def processVariables (names : List String) : IO CommandLine.Variables := do
  let mut values : SortedMap String String := ∅
  for name in names do
    if let some value ← IO.getEnv name then values := values.insert name value
  return values.get?

/-- The current time. -/
def now : IO Time.Instant := do
  let t ← Std.Time.Timestamp.now
  return ⟨t.toSecondsSinceUnixEpoch.val, t.val.nano.val.toNat⟩

/-- What a command with the given options meets. -/
def world (o : CommandLine.Options) : IO CommandLine.World := do
  let current := (← resolve? ".").getD []
  let finds := (← above current) ++ (← repository o.rootPath.text)
  let w : CommandLine.World := {
    tree := treeOf current finds
    «variables» := (← processVariables (variableNames finds))
    now := (← now)
    history := fun _ => none
    terminal := (← (← IO.getStdout).isTty) }
  let w' := { w with «variables» := w.variables.enterNearest w.tree }
  match CommandLine.contextOf w' o with
  | .error _ => return w
  | .ok c =>
      let more := (← manifests c.manifestDir) ++ (← sources c w.tree)
      return { w with tree := treeOf current (more ++ finds) }

/-- Write a file as a whole: first beside its place, then into it. -/
def replaceFile (l : Location) (bytes : List UInt8) : IO Unit := do
  let beside := textOf (l.dropLast ++ ["." ++ l.getLast?.getD "" ++ ".new"])
  IO.FS.writeBinFile beside ⟨bytes.toArray⟩
  IO.FS.rename beside (textOf l)

/-- Write what differs between two trees. -/
def writeBack (before after : FileTree) : IO Unit := do
  for (l, e) in after.entries.entries do
    if before.get? l ≠ some e then
      match e with
      | .folder => IO.FS.createDirAll (textOf l)
      | .file bytes => replaceFile l bytes

end Gazetteer.Outer

open Gazetteer in
/-- Run the command that the arguments name. -/
def main (arguments : List String) : IO UInt32 := do
  let options := match CommandLine.parse arguments with
    | .ok command => command.options
    | .error _ => {}
  let w ← Outer.world options
  let outcome := CommandLine.run w arguments
  try
    Outer.writeBack w.tree outcome.tree
    IO.print outcome.output
    IO.eprint outcome.errors
    return outcome.code.toUInt32
  catch e =>
    IO.eprintln ("error: " ++ toString e)
    return 1
