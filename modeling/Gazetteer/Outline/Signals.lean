import Gazetteer.Convention.Signals
import Gazetteer.Outline.Text

/-!
# Counting idioms

Every tree of a program is looked at once and adds at most one to one counter.
-/

namespace Gazetteer.Outline

set_option autoImplicit false

open Syntax (Tree Kind Role)

/-- Whether a name is that of a hook: `use` and a capital. -/
def isHookName (name : String) : Bool :=
  match Text.after? "use".toList name.toList with
  | some (c :: _) => 'A' ≤ c && c ≤ 'Z'
  | _ => false

/-- The text of a child with a role; empty if there is none. -/
def roleText (t : Tree) (r : Role) : String := ((t.child? r).map (·.text)).getD ""

/-- A call of a plain name. -/
def namedCall (name : String) : Signals :=
  if name = "createContext" then { contextProviders := 1 }
  else if ["createStore", "configureStore", "createSlice", "combineReducers",
      "defineStore"].contains name then { stores := 1 }
  else if ["createSignal", "signal", "observable", "writable", "readable"].contains name then
    { observables := 1 }
  else if name = "fetch" then { httpCalls := 1 }
  else if ["pipeline", "createReadStream", "createWriteStream"].contains name then { streams := 1 }
  else if isHookName name then { reactHooks := 1 }
  else {}

/-- A call of a member of something. -/
def memberCall (object property : String) : Signals :=
  if object = "axios" then { httpCalls := 1 }
  else if object = "React" && isHookName property then { reactHooks := 1 }
  else if property = "then" then { promiseChains := 1 }
  else if property = "catch" then { promiseCatch := 1 }
  else if ["on", "once", "emit", "addListener", "addEventListener"].contains property then
    { eventEmitters := 1 }
  else if property = "subscribe" then { observables := 1 }
  else if ["pipe", "pipeTo", "pipeThrough"].contains property then { streams := 1 }
  else {}

/-- A call. -/
def callSignals (t : Tree) : Signals :=
  match t.child? .callee with
  | none => {}
  | some callee =>
      match callee.kind with
      | .identifier => namedCall callee.text
      | .memberExpression => memberCall (roleText callee .object) (roleText callee .property)
      | _ => {}

/-- The construction of an object. -/
def newSignals (constructor : String) : Signals :=
  if constructor = "EventEmitter" then { eventEmitters := 1 }
  else if ["Subject", "BehaviorSubject", "ReplaySubject", "Observable"].contains constructor then
    { observables := 1 }
  else if constructor = "Promise" then { promiseChains := 1 }
  else if constructor = "XMLHttpRequest" then { httpCalls := 1 }
  else if ["ReadableStream", "WritableStream", "TransformStream"].contains constructor then
    { streams := 1 }
  else {}

/-- Cut a word at the front of a text as often as it stands there. -/
def withoutLead (lead : List Char) : (fuel : Nat) → List Char → List Char
  | 0, cs => cs
  | fuel + 1, cs =>
      match Text.after? lead cs with
      | some rest => withoutLead lead fuel rest
      | none => cs

/-- The last name of what a class extends, judged by the text alone. -/
def parentName (heritage : String) : String :=
  let cs := withoutLead "extends".toList heritage.length heritage.toList
  let ends (c : Char) : Bool := Text.isBlank c || c = '<' || c = '\x7b' || c = '('
  let first := ((Text.splitBy ends cs).find? fun part => !part.isEmpty).getD []
  String.ofList ((Text.splitBy (· = '.') first).getLast?.getD [])

/-- What a class extends. -/
def heritageSignals (heritage : String) : Signals :=
  let parent := parentName heritage
  if Text.endsWith parent "Error" then { customErrors := 1 }
  else if parent = "EventEmitter" then { eventEmitters := 1 }
  else {}

/-- The keys of an object that are given by a pair or stand for themselves. -/
def objectKeys (t : Tree) : List String :=
  t.children.filterMap fun c =>
    match c.kind with
    | .pair => (c.child? .key).map (·.text)
    | .shorthandProperty => some c.text
    | _ => none

/-- An object that says whether something went well, and what went wrong. -/
def objectSignals (t : Tree) : Signals :=
  let keys := objectKeys t
  if (keys.contains "ok" || keys.contains "success") && keys.contains "error" then
    { resultObjects := 1 }
  else {}

/-- What a single tree adds. -/
def treeSignals (t : Tree) : Signals :=
  match t.kind with
  | .tryStatement => { tryCatch := 1 }
  | .awaitExpression => { asyncAwait := 1 }
  | .callExpression => callSignals t
  | .newExpression => newSignals (roleText t .constructor)
  | .classHeritage => heritageSignals t.text
  | .object => objectSignals t
  | .jsxOpeningElement | .jsxSelfClosingElement =>
      if Text.endsWith (roleText t .name) ".Provider" then { contextProviders := 1 } else {}
  | _ => {}

/-- The signals of a program. -/
def signals (root : Tree) : Signals :=
  (root.preorder.map treeSignals).foldl (· + ·) { files := 1 }

/-- The modules named by calls of `require` and `import`. -/
def calledModules (root : Tree) : List String :=
  root.preorder.filterMap fun t =>
    if t.kind != .callExpression then none
    else
      match t.child? .callee, t.child? .arguments with
      | some callee, some arguments =>
          if callee.kind = .importCallee || (callee.kind = .identifier && callee.text = "require")
          then arguments.namedChildren.head?.bind stringValue?
          else none
      | _, _ => none

end Gazetteer.Outline
