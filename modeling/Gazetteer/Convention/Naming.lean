import Gazetteer.Record.Finding
import Gazetteer.Record.Symbol
import Gazetteer.Text.Blank

/-!
# Naming conventions

The names of symbols are sorted into styles, without the marks they may start with.  The snake pattern asks
for an underscore, which neither the camel nor the Pascal pattern allows, so no name is counted in two styles.
-/

namespace Gazetteer

set_option autoImplicit false

namespace NameStyle

/-- A small ASCII letter. -/
def isSmall (c : Char) : Bool := 'a' ≤ c && c ≤ 'z'

/-- An ASCII capital. -/
def isCapital (c : Char) : Bool := 'A' ≤ c && c ≤ 'Z'

/-- An ASCII digit. -/
def isDigit (c : Char) : Bool := '0' ≤ c && c ≤ '9'

/-- An ASCII letter or digit. -/
def isAlnum (c : Char) : Bool := isSmall c || isCapital c || isDigit c

/-- A small ASCII letter or a digit. -/
def isSmallAlnum (c : Char) : Bool := isSmall c || isDigit c

/-- Letters and digits, the first a small letter. -/
def isCamel : List Char → Bool
  | [] => false
  | c :: cs => isSmall c && cs.all isAlnum

/-- Letters and digits, the first a capital. -/
def isPascal : List Char → Bool
  | [] => false
  | c :: cs => isCapital c && cs.all isAlnum

/-- At least two words of small letters and digits joined by single underscores; the first starts with a
letter. -/
def isSnake (cs : List Char) : Bool :=
  match cs, Text.splitBy (· = '_') cs with
  | c :: _, words@(_ :: _ :: _) => isSmall c && words.all fun w => !w.isEmpty && w.all isSmallAlnum
  | _, _ => false

/-- A capital I in front of a Pascal name. -/
def isPrefixed : List Char → Bool
  | 'I' :: cs => isPascal cs
  | _ => false

/-- A name without the marks it may start with. -/
def bare (name : String) : List Char :=
  name.toList.dropWhile fun c => c = '#' || c = '_' || c = '$'

end NameStyle

/-- How many symbols follow which style, in words of 32 bits. -/
structure NamingStats where
  functions : BitVec 32 := 0
  camelCase : BitVec 32 := 0
  snakeCase : BitVec 32 := 0
  pascalCaseFunctions : BitVec 32 := 0
  classes : BitVec 32 := 0
  pascalCaseClasses : BitVec 32 := 0
  interfaces : BitVec 32 := 0
  prefixedInterfaces : BitVec 32 := 0
  deriving Repr, DecidableEq

namespace NamingStats

open NameStyle

/-- Add the counts of two lists of symbols. -/
def add (a b : NamingStats) : NamingStats where
  functions := a.functions + b.functions
  camelCase := a.camelCase + b.camelCase
  snakeCase := a.snakeCase + b.snakeCase
  pascalCaseFunctions := a.pascalCaseFunctions + b.pascalCaseFunctions
  classes := a.classes + b.classes
  pascalCaseClasses := a.pascalCaseClasses + b.pascalCaseClasses
  interfaces := a.interfaces + b.interfaces
  prefixedInterfaces := a.prefixedInterfaces + b.prefixedInterfaces

instance : Add NamingStats := ⟨add⟩

theorem add_right_comm (r s t : NamingStats) : r + s + t = r + t + s := by
  change add (add r s) t = add (add r t) s
  simp only [add]
  ac_rfl

/-- The count of one symbol. Constructors and names made of marks only do not count as functions. -/
def one (kind : SymbolKind) (name : String) : NamingStats :=
  let cs := bare name
  match kind with
  | .function | .variableFunction | .method =>
      if cs = "constructor".toList || cs.isEmpty then {}
      else if isSnake cs then { functions := 1, snakeCase := 1 }
      else if isCamel cs then { functions := 1, camelCase := 1 }
      else if isPascal cs then { functions := 1, pascalCaseFunctions := 1 }
      else { functions := 1 }
  | .classType => { classes := 1, pascalCaseClasses := if isPascal cs then 1 else 0 }
  | .interface => { interfaces := 1, prefixedInterfaces := if isPrefixed cs then 1 else 0 }

/-- The counts of all symbols. -/
def of (symbols : List Symbol) : NamingStats :=
  symbols.foldl (fun stats s => stats + one s.kind s.name) {}

/-- The counters by their names. -/
def fields : List (String × (NamingStats → BitVec 32)) :=
  [("functions", (·.functions)), ("camel_case", (·.camelCase)), ("snake_case", (·.snakeCase)),
    ("pascal_case_functions", (·.pascalCaseFunctions)), ("classes", (·.classes)),
    ("pascal_case_classes", (·.pascalCaseClasses)), ("interfaces", (·.interfaces)),
    ("prefixed_interfaces", (·.prefixedInterfaces))]

/-- What the counters show. -/
def counters (s : NamingStats) : List (String × Nat) :=
  fields.map fun (name, count) => (name, (count s).toNat)

end NamingStats

/-- A rule on the names of a repository. -/
structure NamingRule where
  id : String
  description : String
  applies : NamingStats → Bool

namespace NamingRule

/-- What the rule finds. -/
def finding (r : NamingRule) : Finding := ⟨.naming, r.description⟩

/-- All rules. Camel and snake case need three fifths of the functions, components one fifth. -/
def all : List NamingRule :=
  [⟨"camel-case-functions", "camelCase function and method names", fun s =>
      s.functions > 0 && s.camelCase * 10 ≥ s.functions * 6⟩,
    ⟨"snake-case-functions", "snake_case function and method names", fun s =>
      s.functions > 0 && s.snakeCase * 10 ≥ s.functions * 6⟩,
    ⟨"pascal-case-components", "PascalCase functions (component style)", fun s =>
      s.pascalCaseFunctions > 0 && s.pascalCaseFunctions * 10 ≥ s.functions * 2⟩,
    ⟨"pascal-case-classes", "PascalCase class names", fun s =>
      s.classes > 0 && s.pascalCaseClasses = s.classes⟩,
    ⟨"interface-i-prefix", "Interfaces prefixed with I", fun s =>
      s.interfaces > 0 && s.prefixedInterfaces * 2 > s.interfaces⟩,
    ⟨"interface-no-prefix", "Interfaces named without an I prefix", fun s =>
      s.interfaces > 0 && s.prefixedInterfaces = 0⟩]

end NamingRule

end Gazetteer
