import Gazetteer.Files.Tree
import Gazetteer.Proofs.Text.Pieces
import Mathlib.Data.List.Basic

/-!
# The components of a path

A name that is joined to a directory becomes one more component, whatever the text of the directory is
(`Path.components_join`).  The text of a location leads to it step by step (`Path.components_pathOf`).  Both rest on
what a separator does to the pieces of a text (`Text.splitBy_append_cons`), which make it up again
(`Path.intercalate_pieces`).
-/

namespace Gazetteer

set_option autoImplicit false

namespace Path

/-! ## Names -/

/-- What can be the name of a file or folder. -/
structure IsName (s : String) : Prop where
  whole : '/' ∉ s.toList
  filled : s ≠ ""
  apart : s ≠ "."
  inside : s ≠ ".."

instance (s : String) : Decidable (IsName s) :=
  decidable_of_iff ('/' ∉ s.toList ∧ s ≠ "" ∧ s ≠ "." ∧ s ≠ "..")
    ⟨fun ⟨whole, filled, apart, inside⟩ => ⟨whole, filled, apart, inside⟩,
      fun name => ⟨name.whole, name.filled, name.apart, name.inside⟩⟩

theorem inner?_name {s : String} (name : IsName s) : inner? s = some (.name s) := by
  have shown : (decide (s = "") || decide (s = ".")) = false := by
    rw [Bool.or_eq_false_iff, decide_eq_false_iff_not, decide_eq_false_iff_not]
    exact ⟨name.filled, name.apart⟩
  rw [inner?, shown, if_neg Bool.false_ne_true, if_neg name.inside]

theorem pieces_name {s : String} (name : IsName s) : pieces s = [s] := by
  have whole : ∀ c ∈ s.toList, decide (c = '/') = false := by
    intro c member
    rw [decide_eq_false_iff_not]
    rintro rfl
    exact name.whole member
  rw [pieces, Text.splitBy_of_whole whole, List.map_singleton, String.ofList_toList]

theorem pieces_append (s s' : String) : pieces (s ++ "/" ++ s') = pieces s ++ pieces s' := by
  have text : (s ++ "/" ++ s').toList = s.toList ++ '/' :: s'.toList := by
    rw [String.toList_append, String.toList_append, List.append_assoc]
    rfl
  rw [pieces, text, Text.splitBy_append_cons (decide_eq_true rfl), List.map_append]
  rfl

theorem pieces_slash {s first : String} {rest : List String} (split : pieces s = first :: rest) :
    pieces (s ++ "/") = first :: (rest ++ [""]) := by
  have appended := pieces_append s ""
  rw [String.append_empty, split] at appended
  exact appended

theorem pieces_ne_nil (s : String) : pieces s ≠ [] := by
  rw [pieces, ne_eq, List.map_eq_nil_iff]
  exact Text.splitBy_ne_nil s.toList

/-- The pieces of a text make it up again. -/
theorem intercalate_pieces (s : String) : String.intercalate "/" (pieces s) = s := by
  have chars (cs : List Char) :
      String.intercalate "/" ((Text.splitBy (· = '/') cs).map String.ofList) = String.ofList cs := by
    induction cs with
    | nil => rfl
    | cons c cs ih =>
      cases split : Text.splitBy (· = '/') cs with
      | nil => exact absurd split (Text.splitBy_ne_nil cs)
      | cons piece more =>
        rw [split, List.map_cons] at ih
        have lead (cs : List Char) : String.ofList (c :: cs) = String.ofList [c] ++ String.ofList cs := by
          rw [← String.ofList_append]
          rfl
        rw [Text.splitBy, split, lead, ← ih]
        by_cases slash : c = '/'
        · subst slash
          rw [if_pos (decide_eq_true rfl), List.map_cons, List.map_cons, String.intercalate_cons_cons]
          rfl
        · rw [decide_eq_false slash, if_neg Bool.false_ne_true, List.map_cons]
          cases more with
          | nil => exact lead piece
          | cons next more =>
            rw [List.map_cons, String.intercalate_cons_cons, String.intercalate_cons_cons, lead]
            simp only [String.append_assoc]
  rw [pieces, chars, String.ofList_toList]

theorem empty_of_pieces {s : String} (empty : pieces s = [""]) : s = "" := by
  have chars : Text.splitBy (· = '/') s.toList = [[]] := by
    obtain ⟨cs, split, none⟩ := List.map_eq_singleton_iff.1 empty
    rw [split, String.ofList_eq_empty_iff.1 none]
  rw [← String.ofList_toList (s := s), (Text.splitBy_eq_singleton_iff.1 chars).2]

theorem filled_of_pieces {s first : String} {rest : List String} (filled : s ≠ "") (split : pieces s = first :: rest) :
    first ≠ "" ∨ rest ≠ [] := by
  rw [← not_and_or]
  rintro ⟨rfl, rfl⟩
  exact filled (empty_of_pieces split)

theorem isName_of_inner? {p : Path} {piece s : String} (member : piece ∈ pieces p.text)
    (name : inner? piece = some (.name s)) :
    IsName s := by
  unfold inner? at name
  split at name
  · cases name
  · rename_i shown
    split at name
    · cases name
    · rename_i inside
      cases name
      rw [Bool.or_eq_true, decide_eq_true_eq, decide_eq_true_eq, not_or] at shown
      refine ⟨?_, shown.1, shown.2, inside⟩
      obtain ⟨cs, listed, rfl⟩ := List.mem_map.1 member
      rw [String.toList_ofList]
      exact fun slash => of_decide_eq_false (Text.whole_of_mem_splitBy listed '/' slash) rfl

/-- The names in a path are names. -/
theorem isName_of_mem_components {p : Path} {s : String} (member : .name s ∈ p.components) : IsName s := by
  unfold components at member
  split at member
  · cases member
  · rename_i first rest pieces
    obtain front | inside := List.mem_append.1 member
    · split at front
      · split at front
        · cases front
        · rw [List.mem_singleton] at front
          cases front
      · split at front
        · rw [List.mem_singleton] at front
          cases front
        · rw [Option.mem_toList] at front
          exact isName_of_inner? (pieces ▸ List.mem_cons_self) front
    · obtain ⟨piece, listed, name⟩ := List.mem_filterMap.1 inside
      exact isName_of_inner? (pieces ▸ List.mem_cons_of_mem first listed) name

/-! ## Joining a name -/

/-- The components of pieces of which the first is not all. -/
theorem components_of_pieces {p : Path} {first : String} {rest : List String}
    (split : pieces p.text = first :: rest) (more : first ≠ "" ∨ rest ≠ []) :
    p.components =
      (if first = "" then [.root] else if first = "." then [.current] else (inner? first).toList) ++
        rest.filterMap inner? := by
  rw [components, split]
  dsimp only
  by_cases empty : first = ""
  · have filled : rest.isEmpty = false := by
      rw [List.isEmpty_eq_false_iff]
      exact more.resolve_left (not_not_intro empty)
    rw [if_pos empty, if_pos empty, filled, if_neg Bool.false_ne_true]
  · rw [if_neg empty, if_neg empty]

/-- Only the empty path has no components. -/
theorem components_ne_nil {p : Path} (filled : p.text ≠ "") : p.components ≠ [] := by
  cases split : pieces p.text with
  | nil => exact absurd split (pieces_ne_nil p.text)
  | cons first rest =>
    rw [components_of_pieces split (filled_of_pieces filled split)]
    refine List.append_ne_nil_of_left_ne_nil ?_ _
    by_cases empty : first = ""
    · rw [if_pos empty]
      exact List.cons_ne_nil _ _
    · rw [if_neg empty]
      by_cases here : first = "."
      · rw [if_pos here]
        exact List.cons_ne_nil _ _
      · rw [if_neg here, inner?, decide_eq_false empty, decide_eq_false here, Bool.or_false, if_neg Bool.false_ne_true]
        split
        · exact List.cons_ne_nil _ _
        · exact List.cons_ne_nil _ _

/-- What stands behind a slash adds its own components. -/
theorem components_append (s s' : String) :
    components ⟨s ++ "/" ++ s'⟩ = components ⟨s ++ "/"⟩ ++ (pieces s').filterMap inner? := by
  cases split : pieces s with
  | nil => exact absurd split (pieces_ne_nil s)
  | cons first rest =>
    have whole : pieces (s ++ "/" ++ s') = first :: (rest ++ pieces s') := by rw [pieces_append, split]; rfl
    rw [components_of_pieces whole (.inr (by simp [pieces_ne_nil])),
      components_of_pieces (pieces_slash split) (.inr (by simp)), List.filterMap_append, List.filterMap_append, ← List.append_assoc]
    congr 1
    exact (congrArg _ (List.append_nil _)).symm

/-- A slash at the end of a path that is not empty counts for nothing. -/
theorem components_slash {s : String} (filled : s ≠ "") : components ⟨s ++ "/"⟩ = components ⟨s⟩ := by
  cases split : pieces s with
  | nil => exact absurd split (pieces_ne_nil s)
  | cons first rest =>
    rw [components_of_pieces (pieces_slash split) (.inr (by simp)), components_of_pieces split (filled_of_pieces filled split),
      List.filterMap_append]
    exact congrArg _ (List.append_nil _)

theorem components_name {s : String} (name : IsName s) : components ⟨s⟩ = [.name s] := by
  rw [components_of_pieces (pieces_name name) (.inl name.filled), if_neg name.filled, if_neg name.apart,
    inner?_name name]
  rfl

theorem startsWith_name {s : String} (name : IsName s) : Text.startsWith s "/" = false := by
  cases text : s.toList with
  | nil => rw [Text.startsWith, text]; rfl
  | cons c cs =>
    have other : c ≠ '/' := by
      rintro rfl
      exact name.whole (text ▸ List.mem_cons_self)
    rw [Text.startsWith, text, Bool.eq_false_iff]
    intro lead
    rw [List.isPrefixOf_iff_prefix] at lead
    exact other (List.cons_prefix_cons.1 lead).1.symm

/-- What is joined to a path that is not empty adds its own components, unless it is an absolute path. -/
theorem components_join_of_filled {s : String} (unled : Text.startsWith s "/" = false) {dir : Path}
    (filled : dir.text ≠ "") : (dir.join s).components = dir.components ++ (pieces s).filterMap inner? := by
  obtain ⟨text⟩ := dir
  rw [join, unled, if_neg Bool.false_ne_true, if_neg filled]
  by_cases slash : Text.endsWith text "/" = true
  · obtain ⟨lead, rfl⟩ : ∃ lead, text = lead ++ "/" := by
      rw [Text.endsWith, List.isSuffixOf_iff_suffix] at slash
      obtain ⟨cs, same⟩ := slash
      refine ⟨String.ofList cs, ?_⟩
      rw [← String.ofList_toList (s := text), ← same, String.ofList_append]
      rfl
    rw [if_pos slash, components_append]
  · rw [if_neg slash, components_append, components_slash filled]

/-- A name joined to a directory is one more component. -/
theorem components_join {s : String} (name : IsName s) (dir : Path) :
    (dir.join s).components = dir.components ++ [.name s] := by
  by_cases empty : dir.text = ""
  · obtain ⟨text⟩ := dir
    rw [join, startsWith_name name, if_neg Bool.false_ne_true, if_pos empty, components_name name,
      show text = "" from empty]
    rfl
  · rw [components_join_of_filled (startsWith_name name) empty, pieces_name name, List.filterMap_cons,
      inner?_name name, List.filterMap_nil]

theorem isAbsolute_join {s : String} (name : IsName s) (dir : Path) : (dir.join s).isAbsolute = dir.isAbsolute := by
  rw [join, startsWith_name name, if_neg Bool.false_ne_true]
  obtain ⟨text⟩ := dir
  have behind {lead : String} (filled : lead ≠ "") (s' : String) :
      Text.startsWith (lead ++ s') "/" = Text.startsWith lead "/" := by
    rw [Text.startsWith, Text.startsWith, String.toList_append]
    cases chars : lead.toList with
    | nil =>
      rw [← String.ofList_toList (s := lead), chars] at filled
      exact absurd rfl filled
    | cons c cs => rfl
  dsimp only [isAbsolute]
  by_cases empty : text = ""
  · rw [if_pos empty, startsWith_name name, empty]
    rfl
  · rw [if_neg empty]
    split
    · exact behind empty s
    · dsimp only
      rw [String.append_assoc]
      exact behind empty _

/-! ## The text of a location -/

theorem pieces_intercalate {l : List String} (names : ∀ s ∈ l, IsName s) (filled : l ≠ []) :
    pieces (String.intercalate "/" l) = l := by
  induction l with
  | nil => exact absurd rfl filled
  | cons s l ih =>
    obtain ⟨name, names⟩ := List.forall_mem_cons.1 names
    cases l with
    | nil => exact pieces_name name
    | cons s' l =>
      rw [String.intercalate_cons_cons, pieces_append, pieces_name name, ih names (List.cons_ne_nil s' l)]
      rfl

theorem eq_of_intercalate {l l' : List String} (names : ∀ s ∈ l, IsName s) (filled : l ≠ [])
    (names' : ∀ s ∈ l', IsName s) (filled' : l' ≠ [])
    (same : String.intercalate "/" l = String.intercalate "/" l') : l = l' := by
  rw [← pieces_intercalate names filled, same, pieces_intercalate names' filled']

/-- The text of a location leads to it from the top. -/
theorem components_pathOf {l : Location} (names : ∀ s ∈ l, IsName s) :
    (FileTree.pathOf l).components = .root :: l.map .name := by
  have filter : (pieces (String.intercalate "/" l)).filterMap inner? = l.map .name := by
    cases l with
    | nil => rfl
    | cons s l =>
      rw [pieces_intercalate names (List.cons_ne_nil s l),
        List.filterMap_congr fun s' member => inner?_name (names s' member)]
      exact congrFun List.filterMap_eq_map _
  have appended := components_append "" (String.intercalate "/" l)
  rw [filter] at appended
  exact appended

/-! ## Absolute paths of names -/

/-- The path leads from the top by names alone. -/
def Direct (p : Path) (l : Location) : Prop := p.components = .root :: l.map .name

theorem Direct.names {p : Path} {l : Location} (direct : p.Direct l) : ∀ s ∈ l, IsName s := by
  intro s member
  refine isName_of_mem_components (p := p) ?_
  rw [direct]
  exact List.mem_cons_of_mem _ (List.mem_map_of_mem member)

theorem direct_pathOf {l : Location} (names : ∀ s ∈ l, IsName s) :
    (FileTree.pathOf l).Direct l := components_pathOf names

theorem after?_eq_some_iff {lead cs rest : List Component} : after? lead cs = some rest ↔ cs = lead ++ rest := by
  induction lead generalizing cs with
  | nil => rw [after?, Option.some_inj, List.nil_append]
  | cons c lead ih =>
    cases cs with
    | nil => exact iff_of_false (Option.some_ne_none rest).symm (List.cons_ne_nil c (lead ++ rest)).symm
    | cons d cs =>
      rw [after?, List.cons_append, List.cons.injEq]
      by_cases same : c = d
      · rw [if_pos same, ih, and_iff_right same.symm]
      · rw [if_neg same]
        exact iff_of_false (Option.some_ne_none rest).symm fun whole => same whole.1.symm

/-- A path lies under another if it starts with its components. -/
theorem isUnder_iff {p lead : Path} : p.isUnder lead = true ↔ lead.components <+: p.components := by
  rw [isUnder, Option.isSome_iff_exists]
  exact exists_congr fun rest => after?_eq_some_iff.trans eq_comm

theorem inner?_ne_root (piece : String) : inner? piece ≠ some .root := by
  unfold inner?
  split
  · exact nofun
  · split <;> exact nofun

/-- A path is absolute if its first component is the root. -/
theorem isAbsolute_of_components {p : Path} {cs : List Component} (rooted : p.components = .root :: cs) :
    p.isAbsolute = true := by
  cases chars : p.text.toList with
  | nil =>
    have none : p.components = [] := by
      rw [components, pieces, chars]
      rfl
    rw [none] at rooted
    cases rooted
  | cons c rest =>
    by_cases slash : c = '/'
    · rw [isAbsolute, Text.startsWith, chars, slash]
      rfl
    · -- the first piece is not empty, and no piece behind it is the root
      refine absurd rooted ?_
      obtain ⟨first, more, split, filled⟩ : ∃ first more, pieces p.text = first :: more ∧ first ≠ "" := by
        rw [pieces, chars, Text.splitBy, decide_eq_false slash, if_neg Bool.false_ne_true]
        split
        · exact ⟨_, _, rfl, by simp⟩
        · exact ⟨_, _, rfl, by simp⟩
      rw [components_of_pieces split (.inl filled), if_neg filled]
      by_cases dot : first = "."
      · rw [if_pos dot]
        intro same
        cases same
      · rw [if_neg dot]
        have none (ps : List String) : ps.filterMap inner? ≠ .root :: cs := by
          intro same
          obtain ⟨piece, -, root⟩ := List.mem_filterMap.1 (same ▸ List.mem_cons_self)
          exact inner?_ne_root piece root
        have one : (inner? first).toList ++ more.filterMap inner? = (first :: more).filterMap inner? := by
          rw [List.filterMap_cons]
          cases inner? first <;> rfl
        rw [one]
        exact none (first :: more)

end Path

end Gazetteer
