import Gazetteer.Json.Decode

/-!
# Findings

A finding is a convention that holds in a whole repository, in one of four categories.  Findings are listed
by category, within a category by description.
-/

namespace Gazetteer

set_option autoImplicit false

open Json

/-- What a convention is about. -/
inductive Category
  | errorHandling
  | stateManagement
  | dataFlow
  | naming
  deriving Repr, DecidableEq

namespace Category

/-- The name of a category. -/
def name : Category → String
  | .errorHandling => "error-handling"
  | .stateManagement => "state-management"
  | .dataFlow => "data-flow"
  | .naming => "naming"

/-- The heading of a category. -/
def title : Category → String
  | .errorHandling => "Error handling"
  | .stateManagement => "State management"
  | .dataFlow => "Data flow"
  | .naming => "Naming"

/-- All categories, in their order. -/
def all : List Category := [.errorHandling, .stateManagement, .dataFlow, .naming]

/-- The place of a category in the order of categories. -/
def rank : Category → Nat
  | .errorHandling => 0
  | .stateManagement => 1
  | .dataFlow => 2
  | .naming => 3

/-- Read the name of a category. -/
def decode : Decoder Category := Decoder.choice (all.map fun c => (c.name, c))

end Category

/-- A convention of a repository. -/
structure Finding where
  category : Category
  description : String
  deriving Repr, DecidableEq

namespace Finding

/-- A finding as JSON. -/
def encode (f : Finding) : Json :=
  .record [("category", .string f.category.name), ("description", .string f.description)]

/-- The fields of a finding. -/
def fields : Fields Decoder (Category × String × Unit) :=
  .field "category" Category.decode .required <|
  .field "description" .text .required .done

/-- Read a finding. -/
def decode : Decoder Finding := fun v => do
  let (category, description, ()) ← fields.record "struct PatternFinding" v
  return ⟨category, description⟩

/-- By category, then by description. -/
def atMost (f g : Finding) : Bool :=
  f.category.rank < g.category.rank ||
    (f.category.rank = g.category.rank && f.description ≤ g.description)

end Finding

end Gazetteer
