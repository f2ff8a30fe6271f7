import Gazetteer.Proofs.Outline.Forms
import Gazetteer.Proofs.Project.Accounting

/-!
# In which order statements come

What a file yields does not tell in which order its statements come, as long as no two of them declare the same name
(`Outline.alike_of_perm`): parts of the outline are put in another order, the declaration of a name stays the only one
(`local?_perm`), and symbols, exports and imports are sorted afterwards.  Symbols that share line and qualified name are
all that may come in another order.
-/

namespace Gazetteer

set_option autoImplicit false

open Syntax (Tree Label)

/-- If no two elements yield something, it does not matter in which order they come. -/
theorem flatMap_perm_of_alone {α β : Type} {g : α → List β} {xs ys : List α} (perm : xs.Perm ys)
    (alone : xs.Pairwise fun a b => g a = [] ∨ g b = []) : ys.flatMap g = xs.flatMap g := by
  induction perm with
  | nil => rfl
  | cons a perm ih => rw [List.flatMap_cons, List.flatMap_cons, ih (List.pairwise_cons.1 alone).2]
  | swap a b rest =>
    -- Of two neighbours one yields nothing, so the other may stand on either side of it.
    have apart : g b = [] ∨ g a = [] := (List.pairwise_cons.1 alone).1 a List.mem_cons_self
    simp only [List.flatMap_cons, ← List.append_assoc]
    obtain none | none := apart <;> rw [none, List.append_nil, List.nil_append]
  | trans first second ih ih' =>
    rw [ih' ((first.pairwise_iff Or.symm).1 alone), ih alone]

/-- What two files yield is the same but for the order of symbols that share line and qualified name. -/
structure Extraction.Alike (x y : Extraction) : Prop where
  file : y.file = x.file
  exports : y.exports = x.exports
  imports : y.imports = x.imports
  signals : y.signals = x.signals
  symbols : y.symbols.Perm x.symbols
  places : y.symbols.map Symbol.place = x.symbols.map Symbol.place

namespace Outline

/-- The entry of a binding in a list of exports. -/
def Binding.entry (b : Binding) : ExportEntry := ⟨b.name, b.kind, b.line⟩

theorem Binding.eq_of_place {a b : Binding} (same : a.entry.place = b.entry.place) : a = b := by
  obtain ⟨name, kind, line⟩ := a
  cases ExportEntry.place_injective same
  rfl

theorem bindingAtMost_iff (a b : Binding) : bindingAtMost a b = true ↔ a.entry.place ≤ b.entry.place :=
  ExportEntry.atMost_iff a.entry b.entry

/-- The names that a top-level statement declares. -/
def declaredNames (t : Tree) : List String := (contribution t).locals.map (·.name)

section Permuted

variable {l : Label} {ts ts' : List Tree}

theorem namedChildren_perm (perm : ts.Perm ts') :
    (Syntax.Tree.node l ts).namedChildren.Perm (Syntax.Tree.node l ts').namedChildren :=
  perm.filter _

theorem Additive.perm {β : Type} {part : Contribution → List β} (additive : Additive part) (l : Label)
    (perm : ts.Perm ts') :
    (part (programContribution (.node l ts))).Perm (part (programContribution (.node l ts'))) := by
  rw [additive.program, additive.program]
  exact (namedChildren_perm perm).flatMap_right _

/-! ## Names -/

theorem local?_eq_getLast? (c : Contribution) (name : String) :
    local? c name = (c.locals.filter fun b => b.name = name).getLast? := by
  rw [local?, ← List.head?_filter, List.filter_reverse, List.head?_reverse]

/-- A name that one statement declares has the same declaration wherever this statement stands. -/
theorem local?_perm (perm : ts.Perm ts') (apart : ts.Pairwise fun s t => (declaredNames s).Disjoint (declaredNames t))
    (name : String) :
    local? (programContribution (.node l ts')) name = local? (programContribution (.node l ts)) name := by
  have alone : (Syntax.Tree.node l ts).namedChildren.Pairwise fun s t =>
      ((contribution s).locals.filter fun b => b.name = name) = [] ∨
        ((contribution t).locals.filter fun b => b.name = name) = [] := by
    -- If both bound the name, both would declare it.
    refine (apart.filter _).imp fun {s t} disjoint => or_iff_not_imp_left.2 fun filled => ?_
    obtain ⟨b, inner⟩ := List.exists_mem_of_ne_nil _ filled
    obtain ⟨member, same⟩ := List.mem_filter.1 inner
    refine List.filter_eq_nil_iff.2 fun b' member' same' => disjoint (List.mem_map_of_mem member) ?_
    rw [of_decide_eq_true same, ← of_decide_eq_true same']
    exact List.mem_map_of_mem member'
  rw [local?_eq_getLast?, local?_eq_getLast?, Additive.locals.program, Additive.locals.program, List.filter_flatMap,
    List.filter_flatMap, flatMap_perm_of_alone (namedChildren_perm perm) alone]

theorem settle_congr {c c' : Contribution} {p : Pending} (declared : local? c' p.localName = local? c p.localName)
    (imported : c'.imported.contains p.localName = c.imported.contains p.localName) : settle c' p = settle c p := by
  rw [settle, settle, declared, imported]

section Apart

variable (perm : ts.Perm ts') (apart : ts.Pairwise fun s t => (declaredNames s).Disjoint (declaredNames t))

include perm apart

theorem settle_perm (p : Pending) :
    settle (programContribution (.node l ts')) p = settle (programContribution (.node l ts)) p :=
  settle_congr (local?_perm perm apart _) (Additive.imported.perm l perm).contains_eq.symm

theorem contains_exportedNames_perm (name : String) :
    (exportedNames (programContribution (.node l ts'))).contains name =
      (exportedNames (programContribution (.node l ts))).contains name := by
  rw [exportedNames, exportedNames]
  simp only [local?_perm perm apart]
  have known := Additive.exportedLocals.perm l perm
  have pending := Additive.pending.perm l perm
  exact (known.append ((pending.filter _).map _)).contains_eq.symm

/-! ## Symbols and exports -/

theorem symbols_perm (file : String) :
    (symbols file (programContribution (.node l ts'))).Perm (symbols file (programContribution (.node l ts))) := by
  refine (List.mergeSort_perm _ _).trans (List.Perm.trans ?_ (List.mergeSort_perm _ _).symm)
  simp only [contains_exportedNames_perm perm apart]
  exact (Additive.declarations.perm l perm).symm.map _

theorem places_perm (file : String) :
    (symbols file (programContribution (.node l ts'))).map Symbol.place =
      (symbols file (programContribution (.node l ts))).map Symbol.place := by
  have sorted (c : Contribution) : ((symbols file c).map Symbol.place).Pairwise (· ≤ ·) :=
    List.pairwise_map.2 (pairwise_mergeSort_of_key SymbolRegistry.atMost_iff _)
  exact ((symbols_perm perm apart file).map _).eq_of_pairwise (fun _ _ _ _ => le_antisymm) (sorted _) (sorted _)

theorem exports_perm (file : String) :
    exports file (programContribution (.node l ts')) = exports file (programContribution (.node l ts)) := by
  have bindings := (Additive.exports.perm l perm).append ((Additive.pending.perm l perm).map
    (settle (programContribution (.node l ts))))
  have sorted := mergeSort_perm_of_key bindingAtMost_iff (fun _ _ => Binding.eq_of_place) bindings
  rw [exports, exports, funext (settle_perm perm apart), sorted]

end Apart

/-! ## Modules and signals -/

theorem preorders_eq_flatMap (ts : List Tree) : Tree.preorders ts = ts.flatMap Tree.preorder := by
  induction ts with
  | nil => rfl
  | cons t ts ih => rw [Tree.preorders, ih, List.flatMap_cons]

variable (program : l.kind = .program) (perm : ts.Perm ts')

include program perm

theorem calledModules_perm :
    (calledModules (.node l ts)).Perm (calledModules (.node l ts')) := by
  -- The program itself is no call, so all calls are below its statements.
  have none (ts : List Tree) : ((Syntax.Tree.node l ts).kind != .callExpression) = true := by
    rw [Tree.kind, Tree.label, program]
    rfl
  simp only [calledModules, Tree.preorder, List.filterMap_cons, none, if_true, preorders_eq_flatMap]
  exact (perm.flatMap_right _).filterMap _

theorem signals_perm : signals (.node l ts') = signals (.node l ts) := by
  have none (ts : List Tree) : treeSignals (.node l ts) = {} := by
    rw [treeSignals, Tree.kind, Tree.label, program]
  simp only [signals, Tree.preorder, List.map_cons, none, preorders_eq_flatMap]
  exact (((perm.flatMap_right _).map _).cons _).symm.foldl_eq' (fun s _ t _ r => r.add_right_comm s t) _

end Permuted

variable {l : Label} {ts ts' : List Tree}

/-- Statements of a program may be put in another order, if no two of them declare the same name; each keeps its text
and its lines. -/
theorem alike_of_perm (file : String) (rules : ImportRules) (program : l.kind = .program) (perm : ts.Perm ts')
    (apart : ts.Pairwise fun s t => (declaredNames s).Disjoint (declaredNames t)) :
    (extractTree file rules (.node l ts)).Alike (extractTree file rules (.node l ts')) where
  file := rfl
  exports := exports_perm perm apart file
  imports := by
    have specifiers := (Additive.specifiers.perm l perm).append (calledModules_perm program perm)
    exact congrArg SortedSet.toList (SortedSet.ofList_perm (specifiers.filter _))
  signals := signals_perm program perm
  symbols := symbols_perm perm apart file
  places := places_perm perm apart file

namespace Sample

/-- An assignment that exports the function `f`. -/
def exportsFunction : Tree := assignment 0 "exports" "g" (.leaf { kind := .identifier, row := 0 } "" "f")

/-- The declaration of the function `f`. -/
def function : Tree := declaration .functionDeclaration 1 "f" []

end Sample

open Sample in
/-- A function may be exported before it is declared, or afterwards. -/
theorem alike_of_perm_swapped :
    [exportsFunction, function].map declaredNames = [[], ["f"]] ∧
      (extractTree "a.js" ⟨none, []⟩ (program [exportsFunction, function])).Alike
        (extractTree "a.js" ⟨none, []⟩ (program [function, exportsFunction])) ∧
      (extractTree "a.js" ⟨none, []⟩ (program [function, exportsFunction])).exports =
        [⟨"a.js", "g", .function, 2⟩] ∧
      (extractTree "a.js" ⟨none, []⟩ (program [function, exportsFunction])).symbols.map
        (fun s => (s.name, s.isExported)) = [("f", true)] := by
  have names : [exportsFunction, function].map declaredNames = [[], ["f"]] := by decide
  have apart : [exportsFunction, function].Pairwise fun s t => (declaredNames s).Disjoint (declaredNames t) := by
    rw [← List.pairwise_map (f := declaredNames), names]
    simp
  exact ⟨names, alike_of_perm "a.js" ⟨none, []⟩ rfl (.swap _ _ []) apart, by decide +kernel, by decide +kernel⟩

end Outline

end Gazetteer
