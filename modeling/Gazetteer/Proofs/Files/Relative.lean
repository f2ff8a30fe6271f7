import Gazetteer.Proofs.Files.Path

/-!
# Relative paths

Seen from an absolute root, a path has a relative text if only names lead from the root to it, and this text names the
path: joined to the root it leads to the same place, and no other place has the same text (`Path.relative_identifies`).
The text is the names between single slashes (`Path.relative?_eq_some_iff`), however root and path are spelt.
-/

namespace Gazetteer.Path

set_option autoImplicit false

/-! ## Names and steps upwards -/

theorem names?_map (l : List String) : names? (l.map .name) = some l := by
  induction l with
  | nil => rfl
  | cons s l ih => rw [List.map_cons, names?, ih, Option.map_some]

/-- Whether a component is a name or a step upwards. -/
def IsInner (c : Component) : Prop := c = .parent ∨ ∃ s, c = .name s

theorem isInner_of_inner? {piece : String} {c : Component} (inner : inner? piece = some c) : IsInner c := by
  unfold inner? at inner
  split at inner
  · cases inner
  · split at inner
    · exact .inl (Option.some.inj inner).symm
    · exact .inr ⟨piece, (Option.some.inj inner).symm⟩

/-- Inner components have names unless one of them is a step upwards. -/
theorem names?_of_inner {cs : List Component} (inner : ∀ c ∈ cs, IsInner c) :
    (.parent ∈ cs ∧ names? cs = none) ∨ ∃ l : List String, cs = l.map .name := by
  induction cs with
  | nil => exact .inr ⟨[], rfl⟩
  | cons c cs ih =>
    obtain ⟨first, others⟩ := List.forall_mem_cons.1 inner
    obtain rfl | ⟨s, rfl⟩ := first
    · exact .inl ⟨List.mem_cons_self, rfl⟩
    · obtain ⟨upwards, none⟩ | ⟨l, rfl⟩ := ih others
      · exact .inl ⟨List.mem_cons_of_mem _ upwards, by rw [names?, none, Option.map_none]⟩
      · exact .inr ⟨s :: l, rfl⟩

/-! ## Absolute paths -/

/-- Behind the root, an absolute path has names and steps upwards only. -/
theorem components_of_isAbsolute {p : Path} (absolute : p.isAbsolute = true) :
    ∃ cs, p.components = .root :: cs ∧ ∀ c ∈ cs, IsInner c := by
  obtain ⟨text⟩ := p
  obtain ⟨behind, led⟩ := List.isPrefixOf_iff_prefix.1 absolute
  have split : text = "" ++ "/" ++ String.ofList behind := by
    rw [← String.ofList_toList (s := text), ← led, String.ofList_append]
    rfl
  refine ⟨(pieces (String.ofList behind)).filterMap inner?, ?_, fun c member => ?_⟩
  · rw [split, components_append]
    rfl
  · obtain ⟨piece, -, inner⟩ := List.mem_filterMap.1 member
    exact isInner_of_inner? inner

theorem filled_of_isAbsolute {p : Path} (absolute : p.isAbsolute = true) : p.text ≠ "" := by
  intro empty
  rw [isAbsolute, empty] at absolute
  cases absolute

section Rooted

variable {root : Path} (absolute : root.isAbsolute = true)

include absolute

/-- What follows an absolute root is inner. -/
theorem isInner_of_follows {p : Path} {rest : List Component} (under : p.components = root.components ++ rest) :
    ∀ c ∈ rest, IsInner c := by
  obtain ⟨top, rooted, -⟩ := components_of_isAbsolute absolute
  rw [rooted, List.cons_append] at under
  obtain ⟨cs, whole, inner⟩ := components_of_isAbsolute (isAbsolute_of_components under)
  rw [whole, List.cons.injEq] at under
  exact fun c member => inner c (under.2 ▸ List.mem_append_right top member)

/-- A path has a relative text if names alone lead to it, and the text is these names. -/
theorem relative?_eq_some_iff {p : Path} {r : String} :
    root.relative? p = some r ↔
      ∃ l : List String, p.components = root.components ++ l.map .name ∧ String.intercalate "/" l = r := by
  constructor
  · intro relative
    obtain ⟨rest, follows, named⟩ := Option.bind_eq_some_iff.1 relative
    obtain ⟨l, names, text⟩ := Option.bind_eq_some_iff.1 named
    have under := after?_eq_some_iff.1 follows
    obtain ⟨-, none⟩ | ⟨l', rfl⟩ := names?_of_inner (isInner_of_follows absolute under)
    · rw [none] at names
      cases names
    · rw [names?_map] at names
      cases names
      exact ⟨l, under, Option.some.inj text⟩
  · rintro ⟨l, under, rfl⟩
    rw [relative?, after?_eq_some_iff.2 under]
    exact congrArg (Option.bind · _) (names?_map l)

/-- A path under the root has a relative text unless it goes upwards on the way. -/
theorem relative?_isSome_iff {p : Path} :
    (root.relative? p).isSome = true ↔ ∃ rest, p.components = root.components ++ rest ∧ .parent ∉ rest := by
  rw [Option.isSome_iff_exists]
  constructor
  · rintro ⟨r, relative⟩
    obtain ⟨l, under, -⟩ := (relative?_eq_some_iff absolute).1 relative
    refine ⟨_, under, fun upwards => ?_⟩
    obtain ⟨s, -, parent⟩ := List.mem_map.1 upwards
    cases parent
  · rintro ⟨rest, under, direct⟩
    obtain ⟨upwards, -⟩ | ⟨l, rfl⟩ := names?_of_inner (isInner_of_follows absolute under)
    · exact absurd upwards direct
    · exact ⟨_, (relative?_eq_some_iff absolute).2 ⟨l, under, rfl⟩⟩

end Rooted

/-! ## The text of some names -/

theorem intercalate_eq_empty_iff {l : List String} (names : ∀ s ∈ l, IsName s) :
    String.intercalate "/" l = "" ↔ l = [] := by
  constructor
  · intro empty
    by_contra filled
    have pieces := pieces_intercalate names filled
    rw [empty] at pieces
    exact (names "" (pieces ▸ List.mem_cons_self)).filled rfl
  · rintro rfl
    rfl

theorem startsWith_intercalate {l : List String} (names : ∀ s ∈ l, IsName s) :
    Text.startsWith (String.intercalate "/" l) "/" = false := by
  rw [Bool.eq_false_iff]
  intro led
  obtain ⟨behind, text⟩ := List.isPrefixOf_iff_prefix.1 led
  have split : String.intercalate "/" l = "" ++ "/" ++ String.ofList behind := by
    rw [← String.ofList_toList (s := String.intercalate "/" l), ← text, String.ofList_append]
    rfl
  have filled : l ≠ [] := by
    rintro rfl
    cases led
  have pieces := pieces_intercalate names filled
  rw [split, pieces_append] at pieces
  exact (names "" (pieces ▸ List.mem_cons_self)).filled rfl

theorem components_join_intercalate {l : List String} (names : ∀ s ∈ l, IsName s) {dir : Path} (filled : dir.text ≠ "") :
    (dir.join (String.intercalate "/" l)).components = dir.components ++ l.map .name := by
  rw [components_join_of_filled (startsWith_intercalate names) filled]
  congr 1
  cases l with
  | nil => rfl
  | cons s l =>
    rw [pieces_intercalate names (List.cons_ne_nil s l), List.filterMap_congr fun s' member => inner?_name (names s' member)]
    exact congrFun List.filterMap_eq_map _

/-! ## What a relative text tells -/

/-- What a text that a path has relative to a root tells of the path. -/
structure Identifies (root p : Path) (r : String) : Prop where
  /-- The root alone has the empty text. -/
  empty : r = "" ↔ p.components = root.components
  /-- No segment is empty, a dot or two dots. -/
  segments : r = "" ∨ ∀ segment ∈ pieces r, IsName segment
  unled : Text.startsWith r "/" = false
  joined : (root.join r).components = p.components
  fixed : root.relative? (root.join r) = some r
  unique : ∀ q, root.relative? q = some r → q.components = p.components

/-- Seen from an absolute root, the paths that only names lead to have a relative text, and it identifies the path. -/
theorem relative_identifies {root : Path} (absolute : root.isAbsolute = true) (p : Path) :
    ((root.relative? p).isSome = true ↔ ∃ rest, p.components = root.components ++ rest ∧ .parent ∉ rest) ∧
      ∀ r, root.relative? p = some r → Identifies root p r := by
  refine ⟨relative?_isSome_iff absolute, fun r relative => ?_⟩
  obtain ⟨l, under, rfl⟩ := (relative?_eq_some_iff absolute).1 relative
  have named {q : Path} {l : List String} (under : q.components = root.components ++ l.map .name) :
      ∀ s ∈ l, IsName s := fun s member =>
    isName_of_mem_components (p := q) (under ▸ List.mem_append_right _ (List.mem_map_of_mem member))
  have names := named under
  have joined := components_join_intercalate names (filled_of_isAbsolute absolute)
  refine ⟨?_, ?_, startsWith_intercalate names, joined.trans under.symm,
    (relative?_eq_some_iff absolute).2 ⟨l, joined, rfl⟩, fun q same => ?_⟩
  · rw [intercalate_eq_empty_iff names, under, List.append_right_eq_self, List.map_eq_nil_iff]
  · by_cases filled : l = []
    · exact .inl ((intercalate_eq_empty_iff names).2 filled)
    · rw [pieces_intercalate names filled]
      exact .inr names
  · obtain ⟨l', under', text⟩ := (relative?_eq_some_iff absolute).1 same
    have joined' := components_join_intercalate (named under') (filled_of_isAbsolute absolute)
    rw [under', under, ← joined', text, joined]

/-- Slashes and dots that count for nothing do not show in the relative text. -/
theorem relative_identifies_spelt :
    isAbsolute ⟨"/repo//./"⟩ = true ∧ relative? ⟨"/repo//./"⟩ ⟨"//repo/src/.//lib/a.ts/"⟩ = some "src/lib/a.ts" ∧
      relative? ⟨"/repo//./"⟩ (join ⟨"/repo//./"⟩ "src/lib/a.ts") = some "src/lib/a.ts" ∧
      (relative? ⟨"/repo//./"⟩ ⟨"/repo/src/../a.ts"⟩).isSome = false := by
  have absolute : isAbsolute ⟨"/repo//./"⟩ = true := by decide
  have relative : relative? ⟨"/repo//./"⟩ ⟨"//repo/src/.//lib/a.ts/"⟩ = some "src/lib/a.ts" := by decide
  obtain ⟨-, identifies⟩ := relative_identifies absolute ⟨"//repo/src/.//lib/a.ts/"⟩
  exact ⟨absolute, relative, (identifies _ relative).fixed, by decide⟩

end Gazetteer.Path
