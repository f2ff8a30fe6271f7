import Gazetteer.Toml.Basic

/-!
# Defining tables

A table may be defined once.  `descend` changes the table that a path of keys leads to and makes the tables on
the way that do not exist yet; it gives nothing where the path runs into something that cannot be extended.
-/

namespace Gazetteer.Toml

set_option autoImplicit false

/-- A key with its place. -/
structure Key where
  name : String
  place : Nat
  deriving Repr, DecidableEq

/-- Give a member a new value. -/
def replaceMember (name : String) (value : Toml) (members : Members) : Members :=
  members.map fun (key, place, old) => if key = name then (key, place, value) else (key, place, old)

/-- The last member of a list with a change made to it. -/
def changeLast {α β : Type} (f : α → Option (α × β)) : List α → Option (List α × β)
  | [] => none
  | [a] => (f a).map fun (a, b) => ([a], b)
  | a :: as => (changeLast f as).map fun (as, b) => (a :: as, b)

/-- Change the table that a path leads to. New tables on the way are dotted or implied, and dotted keys do not
reach into tables that have a header. -/
def descend {β : Type} (byDots : Bool) (f : Form → Members → Option (Form × Members × β)) :
    (path : List Key) → Form → Members → Option (Form × Members × β)
  | [], form, members => f form members
  | key :: path, form, members =>
      let into (form : Form) (members : Members) : Option (Toml × β) :=
        (descend byDots f path form members).map fun (form, members, b) => (.table form members, b)
      match members.lookup key.name with
      | none => do
          let (t, b) ← into (if byDots then .dotted else .implied) []
          return (form, members ++ [(key.name, key.place, t)], b)
      | some (_, .table .inline _) => none
      | some (_, .table inner ms) =>
          if byDots && inner = .headed then none
          else do
            let (t, b) ← into inner ms
            return (form, replaceMember key.name t members, b)
      | some (_, .tables items) => do
          let (items, b) ← changeLast (fun (place, t) =>
            match t with
            | .table inner ms => (into inner ms).map fun (t, b) => ((place, t), b)
            | _ => none) items
          return (form, replaceMember key.name (.tables items) members, b)
      | some _ => none

/-- Add a member to a table. Dotted keys add to dotted tables only, plain keys to all others. -/
def addMember (path : List Key) (key : Key) (place : Nat) (value : Toml) (form : Form)
    (members : Members) : Option (Form × Members) :=
  (descend true (fun form members =>
    if decide (form = .dotted) = path.isEmpty then none
    else if (members.lookup key.name).isSome then none
    else some (form, members ++ [(key.name, place, value)], ())) path form members).map
    fun (form, members, _) => (form, members)

/-- A table in braces; a key that cannot be added makes it none. -/
def inlineTable? (entries : List (List Key × Key × Nat × Toml)) : Option Toml :=
  let start : Form × Members := (.inline, [])
  let add (t : Form × Members) : List Key × Key × Nat × Toml → Option (Form × Members)
    | (path, key, place, value) => addMember path key place value t.1 t.2
  (entries.foldlM add start).map fun (_, members) => .table .inline members

/-- A document while it is read: the tables that are complete, and the one that members are added to, with the
header it stands under. -/
structure Draft where
  root : Members := []
  /-- The path and place of the header, and whether it adds a table to an array. -/
  header : Option (List Key × Nat × Bool) := none
  current : Members := []

namespace Draft

/-- Add a member to the current table. -/
def add (d : Draft) (path : List Key) (key : Key) (place : Nat) (value : Toml) : Option Draft :=
  (addMember path key place value .headed d.current).map fun (_, current) => { d with current }

/-- Put the current table where its header says. -/
def finish (d : Draft) : Option Members :=
  match d.header with
  | none => some d.current
  | some (path, place, isItem) => do
      let key ← path.getLast?
      let t : Toml := .table .headed d.current
      let (_, root, ()) ← descend false (fun form members =>
        match isItem, members.lookup key.name with
        | true, some (_, .tables items) =>
            some (form, replaceMember key.name (.tables (items ++ [(place, t)])) members, ())
        | true, none => some (form, members ++ [(key.name, place, .tables [(place, t)])], ())
        | false, none => some (form, members ++ [(key.name, place, t)], ())
        | _, _ => none) path.dropLast .headed d.root
      return root

/-- Start the table of a header. A table that was only implied before keeps its members. -/
def startTable (d : Draft) (path : List Key) (place : Nat) : Option Draft := do
  let root ← d.finish
  let key ← path.getLast?
  let (_, root, current) ← descend false (fun form members =>
    match members.lookup key.name with
    | none => some (form, members, [])
    | some (_, .table .implied ms) =>
        some (form, members.filter fun (name, _) => name != key.name, ms)
    | some _ => none) path.dropLast .headed root
  return ⟨root, some (path, place, false), current⟩

/-- Start a table that becomes an item of an array. -/
def startItem (d : Draft) (path : List Key) (place : Nat) : Option Draft := do
  let root ← d.finish
  let key ← path.getLast?
  let (_, root, ()) ← descend false (fun form members =>
    match members.lookup key.name with
    | none | some (_, .tables _) => some (form, members, ())
    | some _ => none) path.dropLast .headed root
  return ⟨root, some (path, place, true), []⟩

end Draft

end Gazetteer.Toml
