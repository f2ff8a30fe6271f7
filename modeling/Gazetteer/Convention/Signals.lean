import Gazetteer.Record.Finding

/-!
# Signals of source text

Counts of idioms in one file, or in a whole repository once the counts of its files are added.  A counter is a word
of 32 bits, so a sum that does not fit loses what is above.  Each source rule looks at one counter and asks for a
least number, so more signals never take a finding away.
-/

namespace Gazetteer

set_option autoImplicit false

/-- Idiom counts. -/
structure Signals where
  files : BitVec 32 := 0
  tryCatch : BitVec 32 := 0
  promiseCatch : BitVec 32 := 0
  customErrors : BitVec 32 := 0
  resultObjects : BitVec 32 := 0
  reactHooks : BitVec 32 := 0
  contextProviders : BitVec 32 := 0
  stores : BitVec 32 := 0
  observables : BitVec 32 := 0
  asyncAwait : BitVec 32 := 0
  promiseChains : BitVec 32 := 0
  eventEmitters : BitVec 32 := 0
  httpCalls : BitVec 32 := 0
  streams : BitVec 32 := 0
  deriving Repr, DecidableEq, Inhabited

namespace Signals

/-- The counters by their names. -/
def fields : List (String × (Signals → BitVec 32)) :=
  [("files", (·.files)), ("try_catch", (·.tryCatch)), ("promise_catch", (·.promiseCatch)),
    ("custom_errors", (·.customErrors)), ("result_objects", (·.resultObjects)),
    ("react_hooks", (·.reactHooks)), ("context_providers", (·.contextProviders)),
    ("stores", (·.stores)), ("observables", (·.observables)), ("async_await", (·.asyncAwait)),
    ("promise_chains", (·.promiseChains)), ("event_emitters", (·.eventEmitters)),
    ("http_calls", (·.httpCalls)), ("streams", (·.streams))]

/-- What the counters show. -/
def counters (s : Signals) : List (String × Nat) :=
  fields.map fun (name, count) => (name, (count s).toNat)

/-- Add the counts of two readings. -/
def add (s t : Signals) : Signals where
  files := s.files + t.files
  tryCatch := s.tryCatch + t.tryCatch
  promiseCatch := s.promiseCatch + t.promiseCatch
  customErrors := s.customErrors + t.customErrors
  resultObjects := s.resultObjects + t.resultObjects
  reactHooks := s.reactHooks + t.reactHooks
  contextProviders := s.contextProviders + t.contextProviders
  stores := s.stores + t.stores
  observables := s.observables + t.observables
  asyncAwait := s.asyncAwait + t.asyncAwait
  promiseChains := s.promiseChains + t.promiseChains
  eventEmitters := s.eventEmitters + t.eventEmitters
  httpCalls := s.httpCalls + t.httpCalls
  streams := s.streams + t.streams

instance : Add Signals := ⟨add⟩

theorem add_right_comm (r s t : Signals) : r + s + t = r + t + s := by
  change add (add r s) t = add (add r t) s
  simp only [add]
  ac_rfl

theorem zero_add (s : Signals) : {} + s = s := by
  change add {} s = s
  simp only [add, BitVec.ofNat_eq_ofNat, BitVec.zero_add]

end Signals

/-- A rule on the signals of a repository: it applies when its counter reaches its least number. -/
structure SourceRule where
  id : String
  category : Category
  description : String
  counter : Signals → BitVec 32
  least : BitVec 32

namespace SourceRule

/-- Whether the rule applies. -/
def applies (r : SourceRule) (s : Signals) : Bool := r.least ≤ r.counter s

/-- What the rule finds. -/
def finding (r : SourceRule) : Finding := ⟨r.category, r.description⟩

/-- All rules. -/
def all : List SourceRule :=
  [⟨"try-catch", .errorHandling, "try/catch blocks around fallible operations", (·.tryCatch), 1⟩,
    ⟨"promise-catch", .errorHandling, "Promise rejections handled with .catch()",
      (·.promiseCatch), 1⟩,
    ⟨"custom-errors", .errorHandling, "Custom Error subclasses", (·.customErrors), 1⟩,
    ⟨"result-objects", .errorHandling, "Result objects carrying ok/error fields",
      (·.resultObjects), 2⟩,
    ⟨"react-hooks", .stateManagement, "React hooks for component state", (·.reactHooks), 1⟩,
    ⟨"context-providers", .stateManagement, "Context providers for shared state",
      (·.contextProviders), 1⟩,
    ⟨"stores", .stateManagement, "Centralised stores (Redux-style)", (·.stores), 1⟩,
    ⟨"observables", .stateManagement, "Signals or observables for reactive state",
      (·.observables), 1⟩,
    ⟨"async-await", .dataFlow, "async/await for asynchronous control flow", (·.asyncAwait), 1⟩,
    ⟨"promise-chains", .dataFlow, "Promise chains with .then()", (·.promiseChains), 1⟩,
    ⟨"event-emitters", .dataFlow, "Event emitters and listeners", (·.eventEmitters), 1⟩,
    ⟨"http-requests", .dataFlow, "HTTP requests via fetch or axios", (·.httpCalls), 1⟩,
    ⟨"streams", .dataFlow, "Streams and pipelines", (·.streams), 1⟩]

end SourceRule

end Gazetteer
