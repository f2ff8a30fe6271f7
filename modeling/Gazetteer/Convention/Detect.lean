import Gazetteer.Convention.Naming
import Gazetteer.Convention.Signals
import Gazetteer.Convention.Tooling

/-!
# Conventions of a repository

The findings of all three rule tables: on the signals of the sources, on the names of the symbols, and on the
declared dependencies.
-/

namespace Gazetteer

set_option autoImplicit false

/-- Grows by one whenever a rule changes its meaning. -/
def rulesetVersion : Nat := 1

/-- The findings of every rule that applies, table after table. -/
def detectConventions (signals : Signals) (symbols : List Symbol) (dependencies : List String) :
    List Finding :=
  let stats := NamingStats.of symbols
  (SourceRule.all.filter (·.applies signals)).map (·.finding) ++
    (NamingRule.all.filter (·.applies stats)).map (·.finding) ++
    (toolsOf dependencies).filterMap toolFinding?

end Gazetteer
