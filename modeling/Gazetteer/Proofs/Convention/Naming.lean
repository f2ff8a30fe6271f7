import Gazetteer.Convention.Naming
import Gazetteer.Proofs.Convention.Counters
import Mathlib.Tactic.FinCases

/-!
# How names are counted

As long as there are fewer symbols than a tenth of what a word can hold, every counter shows how many symbols it should
count (`NamingStats.toNat_of`).  So the counters agree with each other, with those of any parts, and with those of the
same symbols in another order, and rules that contradict each other never apply together
(`NamingStats.agrees_of_few`).
-/

namespace Gazetteer

set_option autoImplicit false

namespace NameStyle

/-- A name in snake case starts with a small letter, so it is no Pascal name. -/
theorem isPascal_of_isSnake {cs : List Char} (snake : isSnake cs = true) : isPascal cs = false := by
  unfold isSnake at snake
  split at snake
  · rename_i c rest _ _ _ _
    rw [isPascal, Bool.and_eq_false_iff]
    left
    rw [Bool.and_eq_true, isSmall, Bool.and_eq_true, decide_eq_true_eq] at snake
    rw [isCapital, Bool.and_eq_false_iff, decide_eq_false_iff_not, decide_eq_false_iff_not]
    exact .inr fun capital => absurd (Char.le_trans snake.1.1 capital) (by decide)
  · cases snake

end NameStyle

namespace NamingStats

open NameStyle

variable {symbols : List Symbol} {f : String × (NamingStats → BitVec 32)}

/-! ## One symbol -/

/-- What one symbol may count as. -/
def outcomes : List NamingStats :=
  [{}, { functions := 1 }, { functions := 1, snakeCase := 1 }, { functions := 1, camelCase := 1 },
    { functions := 1, pascalCaseFunctions := 1 }, { classes := 1 }, { classes := 1, pascalCaseClasses := 1 },
    { interfaces := 1 }, { interfaces := 1, prefixedInterfaces := 1 }]

theorem one_mem_outcomes (kind : SymbolKind) (name : String) : one kind name ∈ outcomes := by
  unfold one
  dsimp only
  split
  iterate 3
    · split
      · decide
      · split
        · decide
        · split
          · decide
          · split <;> decide
  · split <;> decide
  · split <;> decide

/-- A symbol in snake case is no camel or Pascal name. -/
theorem one_of_isSnake {s : Symbol} (snake : isSnake (bare s.name) = true) :
    (one s.kind s.name).camelCase = 0 ∧ (one s.kind s.name).pascalCaseFunctions = 0 ∧
      (one s.kind s.name).pascalCaseClasses = 0 := by
  unfold one
  dsimp only
  rw [snake, isPascal_of_isSnake snake]
  split
  iterate 3
    · split <;> exact ⟨rfl, rfl, rfl⟩
  · exact ⟨rfl, rfl, rfl⟩
  · exact ⟨rfl, rfl, rfl⟩

/-! ## All symbols -/

theorem isCounter_of_mem (member : f ∈ fields) : IsCounter f.2 := by
  fin_cases member <;> exact fun _ _ => rfl

/-- How many symbols a counter should count. -/
def number (counter : NamingStats → BitVec 32) (symbols : List Symbol) : Nat :=
  together (fun s => counter (one s.kind s.name)) symbols

theorem number_le_length (member : f ∈ fields) (symbols : List Symbol) : number f.2 symbols ≤ symbols.length := by
  have atMost : ∀ outcome ∈ outcomes, ∀ f ∈ fields, (f.2 outcome).toNat ≤ 1 := by decide
  exact together_le_length (fun s => atMost _ (one_mem_outcomes s.kind s.name) f member) symbols

/-- As long as a word can hold the number of symbols, every counter is exact. -/
theorem toNat_of (few : symbols.length < 2 ^ 32) (member : f ∈ fields) :
    (f.2 (of symbols)).toNat = number f.2 symbols := by
  have none : (f.2 {}).toNat = 0 := by fin_cases member <;> rfl
  have atMost := number_le_length member symbols
  have exact : (f.2 (of symbols)).toNat = (f.2 {}).toNat + number f.2 symbols :=
    toNat_foldl_add (isCounter_of_mem member) _ (by rw [none, Nat.zero_add]; exact atMost.trans_lt few)
  rw [exact, none, Nat.zero_add]

/-- The styles of a kind of name are no more than the names. -/
structure Consistent (s : NamingStats) : Prop where
  functions : s.camelCase.toNat + s.snakeCase.toNat + s.pascalCaseFunctions.toNat ≤ s.functions.toNat
  classes : s.pascalCaseClasses.toNat ≤ s.classes.toNat
  interfaces : s.prefixedInterfaces.toNat ≤ s.interfaces.toNat

instance (s : NamingStats) : Decidable (Consistent s) :=
  decidable_of_iff (_ ∧ _ ∧ _)
    ⟨fun ⟨functions, classes, interfaces⟩ => ⟨functions, classes, interfaces⟩,
      fun consistent => ⟨consistent.functions, consistent.classes, consistent.interfaces⟩⟩

theorem consistent_one (kind : SymbolKind) (name : String) : Consistent (one kind name) := by
  have every : ∀ outcome ∈ outcomes, Consistent outcome := by decide
  exact every _ (one_mem_outcomes kind name)

theorem number_cons (counter : NamingStats → BitVec 32) (s : Symbol) (symbols : List Symbol) :
    number counter (s :: symbols) = (counter (one s.kind s.name)).toNat + number counter symbols :=
  together_cons s symbols

/-- Each symbol adds to the names at least what it adds to their styles. -/
theorem number_styles (symbols : List Symbol) :
    number (·.camelCase) symbols + number (·.snakeCase) symbols + number (·.pascalCaseFunctions) symbols ≤
        number (·.functions) symbols ∧
      number (·.pascalCaseClasses) symbols ≤ number (·.classes) symbols ∧
      number (·.prefixedInterfaces) symbols ≤ number (·.interfaces) symbols := by
  induction symbols with
  | nil => exact ⟨Nat.le_refl 0, Nat.le_refl 0, Nat.le_refl 0⟩
  | cons s symbols ih =>
    obtain ⟨functions, classes, interfaces⟩ := consistent_one s.kind s.name
    simp only [number_cons]
    omega

theorem consistent_of (few : symbols.length < 2 ^ 32) : Consistent (of symbols) := by
  have shows : ∀ f ∈ fields, (f.2 (of symbols)).toNat = number f.2 symbols := fun _ => toNat_of few
  simp only [fields, List.forall_mem_cons] at shows
  obtain ⟨functions, camel, snake, pascal, classes, pascalClasses, interfaces, prefixed, -⟩ := shows
  obtain ⟨functions_le, classes_le, interfaces_le⟩ := number_styles symbols
  constructor
  · rwa [camel, snake, pascal, functions]
  · rwa [pascalClasses, classes]
  · rwa [prefixed, interfaces]

/-! ## Rules that contradict each other -/

section Rules

variable {s : NamingStats}

/-- No two rules with these names apply to the same names. -/
def Exclude (s : NamingStats) (id id' : String) : Prop :=
  ∀ r ∈ NamingRule.all, ∀ r' ∈ NamingRule.all, r.id = id → r'.id = id' →
    ¬ (r.applies s = true ∧ r'.applies s = true)

/-- A counter that fits ten times over can be multiplied by what the rules multiply it by. -/
theorem toNat_times {n : BitVec 32} (few : n.toNat * 10 < 2 ^ 32) {k : Nat} (small : k ≤ 10) :
    (n * BitVec.ofNat 32 k).toNat = n.toNat * k := by
  have factor : (BitVec.ofNat 32 k).toNat = k := by
    rw [BitVec.toNat_ofNat]
    exact Nat.mod_eq_of_lt (by omega)
  have product : n.toNat * k ≤ n.toNat * 10 := Nat.mul_le_mul_left _ small
  rw [BitVec.toNat_mul_of_lt (by rw [factor]; omega), factor]

/-- Two styles cannot both have three fifths of the functions. -/
theorem exclude_camel_snake (few : s.functions.toNat * 10 < 2 ^ 32) (consistent : Consistent s) :
    Exclude s "camel-case-functions" "snake-case-functions" := by
  have styles := consistent.functions
  have apart : 0#32 < s.functions → s.functions * 6#32 ≤ s.camelCase * 10#32 →
      s.snakeCase * 10#32 < s.functions * 6#32 := by
    intro some camel
    rw [BitVec.lt_def, BitVec.toNat_ofNat] at some
    rw [BitVec.le_def, toNat_times few (by omega), toNat_times (by omega) (by omega)] at camel
    rw [BitVec.lt_def, toNat_times few (by omega), toNat_times (by omega) (by omega)]
    omega
  simpa [Exclude, NamingRule.all] using fun some camel _ => apart some camel

theorem exclude_prefix (s : NamingStats) : Exclude s "interface-i-prefix" "interface-no-prefix" := by
  have apart : s.interfaces < s.prefixedInterfaces * 2#32 → s.prefixedInterfaces ≠ 0#32 := by
    intro prefixed none
    rw [none, BitVec.zero_mul] at prefixed
    exact BitVec.not_lt_zero prefixed
  simpa [Exclude, NamingRule.all] using fun _ prefixed _ => apart prefixed

end Rules

/-! ## Agreement -/

/-- How the counters of some symbols agree. -/
structure Agrees (symbols : List Symbol) : Prop where
  consistent : Consistent (of symbols)
  /-- However the symbols are divided in two, each counter is the sum of those of the parts. -/
  divided : ∀ part rest, symbols.Perm (part ++ rest) →
    ∀ f ∈ fields, (f.2 (of symbols)).toNat = (f.2 (of part)).toNat + (f.2 (of rest)).toNat
  /-- The order of the symbols does not count. -/
  permuted : ∀ symbols', symbols.Perm symbols' → of symbols' = of symbols
  camel_snake : Exclude (of symbols) "camel-case-functions" "snake-case-functions"
  interfaces : Exclude (of symbols) "interface-i-prefix" "interface-no-prefix"
  /-- A symbol in snake case adds nothing to camel and Pascal case. -/
  snake : ∀ front s back, symbols = front ++ s :: back → isSnake (bare s.name) = true →
    (of symbols).camelCase = (of (front ++ back)).camelCase ∧
      (of symbols).pascalCaseFunctions = (of (front ++ back)).pascalCaseFunctions ∧
      (of symbols).pascalCaseClasses = (of (front ++ back)).pascalCaseClasses

theorem of_perm {symbols' : List Symbol} (perm : symbols.Perm symbols') : of symbols' = of symbols :=
  perm.symm.foldl_eq' (fun _ _ _ _ r => r.add_right_comm _ _) _

theorem of_divided (few : symbols.length < 2 ^ 32) {part rest : List Symbol} (perm : symbols.Perm (part ++ rest))
    (member : f ∈ fields) : (f.2 (of symbols)).toNat = (f.2 (of part)).toNat + (f.2 (of rest)).toNat := by
  have length := perm.length_eq
  rw [List.length_append] at length
  rw [toNat_of few member, toNat_of (by omega) member, toNat_of (by omega) member]
  exact (together_perm perm).trans (together_append part rest)

/-- What a symbol does not count for is the same with and without it. -/
theorem of_without (few : symbols.length < 2 ^ 32) {front back : List Symbol} {s : Symbol}
    (split : symbols = front ++ s :: back) (member : f ∈ fields) (none : f.2 (one s.kind s.name) = 0) :
    f.2 (of symbols) = f.2 (of (front ++ back)) := by
  have length : symbols.length = (front ++ back).length + 1 := by
    rw [split, List.length_append, List.length_append, List.length_cons, Nat.add_assoc]
  refine BitVec.eq_of_toNat_eq ?_
  rw [toNat_of few member, toNat_of (by omega) member, split, number, number, together_append, together_append,
    together_cons, none]
  exact congrArg _ (Nat.zero_add _)

/-- If there are fewer symbols than a tenth of what a word can hold, their counters agree. -/
theorem agrees_of_few (few : symbols.length * 10 < 2 ^ 32) : Agrees symbols where
  consistent := consistent_of (by omega)
  divided part rest perm f member := of_divided (by omega) perm member
  permuted symbols' perm := of_perm perm
  camel_snake := by
    have functions := toNat_of (f := ("functions", (·.functions))) (by omega : symbols.length < 2 ^ 32) (by simp [fields])
    have atMost := number_le_length (f := ("functions", (·.functions))) (by simp [fields]) symbols
    dsimp only at functions atMost
    exact exclude_camel_snake (by omega) (consistent_of (by omega))
  interfaces := exclude_prefix _
  snake front s back split snake := by
    have few : symbols.length < 2 ^ 32 := by omega
    obtain ⟨camel, functions, classes⟩ := one_of_isSnake snake
    refine ⟨of_without (f := ("camel_case", (·.camelCase))) few split (by simp [fields]) camel, ?_, ?_⟩
    · exact of_without (f := ("pascal_case_functions", (·.pascalCaseFunctions))) few split (by simp [fields]) functions
    · exact of_without (f := ("pascal_case_classes", (·.pascalCaseClasses))) few split (by simp [fields]) classes

/-- Some symbols of which only kind and name are known. -/
def sample : List Symbol :=
  [("loadUsers", .function), ("parse", .variableFunction), ("_load_all", .function), ("constructor", .method),
    ("Header", .function), ("UserService", .classType), ("IUser", .interface), ("Item", .interface)].map
    fun (name, kind) => ⟨name, name, kind, "a.ts", 1, "", false, false, [], none⟩

/-- Of four functions two are in camel case, one is in snake case and one in Pascal case; half of the interfaces have the
letter in front, which is too few for one rule and too many for the other. -/
theorem agrees_of_few_sample :
    sample.length * 10 < 2 ^ 32 ∧ Agrees sample ∧
      (of sample).counters = [("functions", 4), ("camel_case", 2), ("snake_case", 1), ("pascal_case_functions", 1),
        ("classes", 1), ("pascal_case_classes", 1), ("interfaces", 2), ("prefixed_interfaces", 1)] ∧
      (NamingRule.all.filter (·.applies (of sample))).map (·.id) = ["pascal-case-components", "pascal-case-classes"] := by
  have few : sample.length * 10 < 2 ^ 32 := by decide
  exact ⟨few, agrees_of_few few, by decide +kernel, by decide +kernel⟩

end NamingStats

end Gazetteer
