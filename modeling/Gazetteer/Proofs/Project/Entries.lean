import Gazetteer.Project.Interface
import Gazetteer.Proofs.Files.Path
import Gazetteer.Proofs.Registry.Canonical
import Mathlib.Data.List.DropRight

/-!
# Entry files

What a package offers is found in three steps.  The declared entries are the texts that it gives in its fields and
anywhere in its exports (`Package.mem_entries`).  Each may come from a number of source files, which are tried in turn
(`Surface.mem_candidates`), and the first that was scanned decides (`Surface.Yields`); an entry of which none was
scanned stays as it is declared.  The usual files take part only if no declared entry leads to a source.  The public
names are those of the source files among the entries (`Surface.make_reflects`).
-/

namespace Gazetteer

set_option autoImplicit false

/-! ## Declared entries -/

namespace Package

/-- A text stands in a value, however deep. -/
inductive Holds (s : String) : Json → Prop
  | text : Holds s (.string s)
  | item {items : List Json} {v : Json} (member : v ∈ items) (inner : Holds s v) : Holds s (.array items)
  | value {members : List (String × Json)} {key : String} {v : Json} (member : (key, v) ∈ members) (inner : Holds s v) :
      Holds s (.object members)

mutual

theorem mem_textsIn {s : String} : (v : Json) → (s ∈ textsIn v ↔ Holds s v)
  | .null | .bool _ | .number _ => by
      constructor
      · intro member
        cases member
      · intro inner
        cases inner
  | .string t => by
      rw [textsIn, List.mem_singleton]
      constructor
      · rintro rfl
        exact .text
      · intro inner
        cases inner
        rfl
  | .array items => by
      rw [textsIn, mem_textsInItems items]
      constructor
      · rintro ⟨v, member, inner⟩
        exact .item member inner
      · intro inner
        cases inner with
        | item member inner => exact ⟨_, member, inner⟩
  | .object members => by
      rw [textsIn, mem_textsInMembers members]
      constructor
      · rintro ⟨⟨key, v⟩, member, inner⟩
        exact .value member inner
      · intro inner
        cases inner with
        | value member inner => exact ⟨_, member, inner⟩

theorem mem_textsInItems {s : String} : (items : List Json) → (s ∈ textsInItems items ↔ ∃ v ∈ items, Holds s v)
  | [] => by simp [textsInItems]
  | v :: vs => by simp [textsInItems, mem_textsIn v, mem_textsInItems vs]

theorem mem_textsInMembers {s : String} :
    (members : List (String × Json)) → (s ∈ textsInMembers members ↔ ∃ m ∈ members, Holds s m.2)
  | [] => by simp [textsInMembers]
  | (key, v) :: ms => by simp [textsInMembers, mem_textsIn v, mem_textsInMembers ms]

end

/-- A package gives a text in a field for an entry file, or somewhere in its exports. -/
inductive Gives (p : Package) (s : String) : Prop
  | main (here : p.main = some s)
  | module (here : p.module = some s)
  | types (here : p.types = some s)
  | typings (here : p.typings = some s)
  | exports {v : Json} (here : p.exports = some v) (inner : Holds s v)

/-- A package declares an entry: a text that it gives, without `./` at its front, neither empty nor a pattern. -/
structure Declares (p : Package) (entry : String) : Prop where
  given : ∃ n, p.Gives (String.ofList ((List.replicate n ['.', '/']).flatten ++ entry.toList))
  bare : ¬ ['.', '/'] <+: entry.toList
  filled : entry ≠ ""
  single : '*' ∉ entry.toList

theorem withoutHere_of_bare {cs : List Char} (bare : ¬ ['.', '/'] <+: cs) : withoutHere cs = cs := by
  refine withoutHere.eq_2 cs ?_
  rintro rest rfl
  exact bare ⟨rest, rfl⟩

theorem withoutHere_eq_iff {cs rest : List Char} :
    withoutHere cs = rest ↔ (∃ n, cs = (List.replicate n ['.', '/']).flatten ++ rest) ∧ ¬ ['.', '/'] <+: rest := by
  constructor
  · rintro rfl
    fun_induction withoutHere cs with
    | case1 cs ih =>
      obtain ⟨⟨n, same⟩, bare⟩ := ih
      refine ⟨⟨n + 1, ?_⟩, bare⟩
      rw [List.replicate_succ, List.flatten_cons, List.append_assoc, ← same]
      rfl
    | case2 cs other =>
      refine ⟨⟨0, rfl⟩, ?_⟩
      rintro ⟨rest, rfl⟩
      exact other rest rfl
  · rintro ⟨⟨n, rfl⟩, bare⟩
    induction n with
    | zero => exact withoutHere_of_bare bare
    | succ n ih => exact ih

theorem mem_given {p : Package} {s : String} : s ∈ [p.main, p.module, p.types, p.typings].filterMap id ++
    (p.exports.map textsIn).getD [] ↔ p.Gives s := by
  have fields : s ∈ [p.main, p.module, p.types, p.typings].filterMap id ↔
      p.main = some s ∨ p.module = some s ∨ p.types = some s ∨ p.typings = some s := by
    simp [List.mem_filterMap, eq_comm]
  rw [List.mem_append, fields]
  constructor
  · rintro ((here | here | here | here) | inner)
    · exact .main here
    · exact .module here
    · exact .types here
    · exact .typings here
    · cases here : p.exports with
      | none => simp [here] at inner
      | some v =>
        simp only [here, Option.map_some, Option.getD_some] at inner
        exact .exports here ((mem_textsIn v).1 inner)
  · intro gives
    cases gives with
    | main here => simp [here]
    | module here => simp [here]
    | types here => simp [here]
    | typings here => simp [here]
    | exports here inner => simp [here, mem_textsIn, inner]

theorem mem_entries {p : Package} {entry : String} : entry ∈ p.entries ↔ p.Declares entry := by
  rw [entries, List.mem_filter, List.mem_map]
  simp only [Bool.and_eq_true, bne_iff_ne, Bool.not_eq_true', List.contains_eq_mem, decide_eq_false_iff_not]
  constructor
  · rintro ⟨⟨s, member, rfl⟩, filled, single⟩
    obtain ⟨⟨n, same⟩, bare⟩ := withoutHere_eq_iff.1 (rfl : withoutHere s.toList = withoutHere s.toList)
    refine ⟨⟨n, ?_⟩, by rwa [String.toList_ofList], filled, single⟩
    rw [String.toList_ofList, ← same, String.ofList_toList]
    exact mem_given.1 member
  · rintro ⟨⟨n, gives⟩, bare, filled, single⟩
    refine ⟨⟨_, mem_given.2 gives, ?_⟩, filled, single⟩
    rw [String.toList_ofList, withoutHere_eq_iff.2 ⟨⟨n, rfl⟩, bare⟩, String.ofList_toList]

end Package

/-! ## Public names -/

/-- Where a public name comes in its list. -/
def PublicName.place (n : PublicName) : String ×ₗ String ×ₗ ℕ := toLex (n.file, toLex (n.name, n.kind.rank))

theorem PublicName.atMost_iff (m n : PublicName) : m.atMost n = true ↔ m.place ≤ n.place := by
  simp [atMost, place, Prod.Lex.toLex_le_toLex]

theorem PublicName.place_injective : Function.Injective place := by
  rintro ⟨file, name, kind⟩ ⟨file', name', kind'⟩ same
  obtain ⟨sameFile, rest⟩ := Prod.mk.inj same
  obtain ⟨sameName, sameRank⟩ := Prod.mk.inj rest
  cases sameFile
  cases sameName
  cases ExportKind.rank_injective sameRank
  rfl

namespace Surface

/-! ## The sources of an entry -/

/-- What is cut from the end of an entry: the longest of the usual suffixes that it ends in, if it ends in one. -/
structure IsExtension (declared suffix : String) : Prop where
  known : suffix = "" ∨ suffix ∈ entrySuffixes
  ends : suffix.toList <:+ declared.toList
  longest : ∀ other ∈ entrySuffixes, other.toList <:+ declared.toList → other.length ≤ suffix.length

/-- What is left of an entry without its extension and the slashes that stand in front of it. -/
structure IsStem (declared stem : String) : Prop where
  cut : ∃ slashes suffix, IsExtension declared suffix ∧
    declared.toList = stem.toList ++ slashes ++ suffix.toList ∧ ∀ c ∈ slashes, c = '/'
  ends : stem.toList.getLast? ≠ some '/'

/-- The stems of an entry: its own, and if that is in a folder for what is built, the one in `src` instead. -/
inductive Origin (declared : String) : String → Prop
  | own {stem : String} (cut : IsStem declared stem) : Origin declared stem
  | built {folder rest : String} (output : folder ∈ outputFolders) (cut : IsStem declared (folder ++ "/" ++ rest)) :
      Origin declared ("src/" ++ rest)

/-- The files that an entry may come from. -/
inductive Candidate (declared : String) : String → Prop
  | itself : Candidate declared declared
  | file {stem extension : String} (origin : Origin declared stem) (known : extension ∈ sourceExtensions) :
      Candidate declared (stem ++ "." ++ extension)
  | index {stem extension : String} (origin : Origin declared stem) (known : extension ∈ sourceExtensions) :
      Candidate declared (stem ++ "/index" ++ "." ++ extension)

theorem IsExtension.length_le {declared suffix suffix' : String} (first : IsExtension declared suffix)
    (second : IsExtension declared suffix') : suffix.length ≤ suffix'.length := by
  rcases first.known with rfl | known
  · exact Nat.zero_le _
  · exact second.longest suffix known first.ends

theorem IsExtension.unique {declared suffix suffix' : String} (first : IsExtension declared suffix)
    (second : IsExtension declared suffix') : suffix = suffix' := by
  have inner := List.suffix_of_suffix_length_le first.ends second.ends (first.length_le second)
  exact String.toList_inj.1 (inner.eq_of_length (le_antisymm (first.length_le second) (second.length_le first)))

/-- The extension of an entry, as it is looked for. -/
def extensionOf (declared : String) : String :=
  (entrySuffixes.find? fun suffix => Text.endsWith declared suffix).getD ""

/-- A suffix comes before all that end in it, so the first that is found is the longest. -/
theorem isExtension_extensionOf (declared : String) : IsExtension declared (extensionOf declared) := by
  have apart : entrySuffixes.Pairwise fun a b => ¬ a.toList <:+ b.toList := by decide
  cases found : entrySuffixes.find? fun suffix => Text.endsWith declared suffix with
  | none =>
    rw [extensionOf, found]
    refine ⟨.inl rfl, List.nil_suffix, fun other member ends => ?_⟩
    exact absurd (List.isSuffixOf_iff_suffix.2 ends) (List.find?_eq_none.1 found other member)
  | some suffix =>
    rw [extensionOf, found, Option.getD_some]
    obtain ⟨ends, before, after, split, none⟩ := List.find?_eq_some_iff_append.1 found
    have ends := List.isSuffixOf_iff_suffix.1 ends
    refine ⟨.inr (List.mem_of_find?_eq_some found), ends, fun other member ends' => ?_⟩
    rw [split, List.mem_append, List.mem_cons] at member
    rcases member with earlier | rfl | later
    · have passed : Text.endsWith declared other = true := List.isSuffixOf_iff_suffix.2 ends'
      have skipped := none other earlier
      rw [passed] at skipped
      cases skipped
    · exact le_rfl
    · rw [split, List.pairwise_append, List.pairwise_cons] at apart
      by_contra longer
      have shorter : suffix.toList.length ≤ other.toList.length := by
        rw [String.length_toList, String.length_toList]
        exact (not_le.1 longer).le
      exact apart.2.1.1 other later (List.suffix_of_suffix_length_le ends ends' shorter)

theorem stemOf_eq (declared : String) : stemOf declared = String.ofList (Text.trimEnd (· = '/')
    (declared.toList.take (declared.length - (extensionOf declared).length))) := by
  rw [stemOf, extensionOf]
  cases entrySuffixes.find? fun suffix => Text.endsWith declared suffix with
  | none => simp [← String.length_toList]
  | some suffix => rfl

theorem stemOf_eq_iff {declared stem : String} : stemOf declared = stem ↔ IsStem declared stem := by
  have extension := isExtension_extensionOf declared
  obtain ⟨body, split⟩ := extension.ends
  have left : declared.toList.take (declared.length - (extensionOf declared).length) = body := by
    rw [← String.length_toList, ← String.length_toList, ← split, List.length_append, Nat.add_sub_cancel]
    exact List.take_left
  rw [stemOf_eq, left, ← String.toList_inj, String.toList_ofList, Text.trimEnd_eq_iff]
  constructor
  · rintro ⟨⟨slashes, rfl, all⟩, last⟩
    refine ⟨⟨slashes, _, extension, split.symm, fun c member => of_decide_eq_true (all c member)⟩, fun same => ?_⟩
    exact of_decide_eq_false (last '/' same) rfl
  · rintro ⟨⟨slashes, suffix, extension', whole, all⟩, ends⟩
    rw [extension'.unique extension, ← split, List.append_left_inj] at whole
    refine ⟨⟨slashes, whole, fun c member => decide_eq_true (all c member)⟩, fun c last => decide_eq_false ?_⟩
    rintro rfl
    exact ends last

theorem stems_of_built {declared folder rest : String} (output : folder ∈ outputFolders)
    (built : stemOf declared = folder ++ "/" ++ rest) : stems declared = [stemOf declared, "src/" ++ rest] := by
  have name : ∀ folder ∈ outputFolders, Path.IsName folder := by decide
  have pieces : Path.pieces (stemOf declared) = folder :: Path.pieces rest := by
    rw [built, Path.pieces_append, Path.pieces_name (name folder output)]
    rfl
  have whole := Path.intercalate_pieces rest
  unfold stems
  dsimp only
  rw [pieces]
  cases split : Path.pieces rest with
  | nil => exact absurd split (Path.pieces_ne_nil rest)
  | cons second more =>
    rw [split] at whole
    simp only [List.contains_eq_mem, output, decide_true, if_true, whole]

theorem mem_stems {declared stem : String} : stem ∈ stems declared ↔ Origin declared stem := by
  have own : IsStem declared (stemOf declared) := stemOf_eq_iff.1 rfl
  constructor
  · intro member
    have whole := Path.intercalate_pieces (stemOf declared)
    unfold stems at member
    dsimp only at member
    split at member
    · rename_i first second rest pieces
      rw [pieces, String.intercalate_cons_cons] at whole
      split at member
      · rename_i output
        have built : Origin declared ("src/" ++ String.intercalate "/" (second :: rest)) :=
          .built (List.contains_iff_mem.1 output) (by rwa [whole])
        simp only [List.mem_cons, List.not_mem_nil, or_false] at member
        rcases member with rfl | rfl
        · exact .own own
        · exact built
      · rw [List.mem_singleton.1 member]
        exact .own own
    · rw [List.mem_singleton.1 member]
      exact .own own
  · intro origin
    cases origin with
    | own cut =>
      rw [← stemOf_eq_iff.2 cut]
      unfold stems
      dsimp only
      split
      · split <;> simp
      · simp
    | built output cut =>
      rw [stems_of_built output (stemOf_eq_iff.2 cut)]
      simp

theorem mem_withExtensions {stem file : String} :
    file ∈ withExtensions stem ↔ ∃ extension ∈ sourceExtensions, file = stem ++ "." ++ extension := by
  simp [withExtensions, eq_comm]

theorem mem_candidates {declared file : String} : file ∈ candidates declared ↔ Candidate declared file := by
  rw [candidates, List.mem_cons, List.mem_flatMap]
  simp only [List.mem_append, mem_withExtensions, mem_stems]
  constructor
  · rintro (rfl | ⟨stem, origin, ⟨extension, known, rfl⟩ | ⟨extension, known, rfl⟩⟩)
    · exact .itself
    · exact .file origin known
    · exact .index origin known
  · intro candidate
    cases candidate with
    | itself => exact .inl rfl
    | file origin known => exact .inr ⟨_, origin, .inl ⟨_, known, rfl⟩⟩
    | index origin known => exact .inr ⟨_, origin, .inr ⟨_, known, rfl⟩⟩

/-! ## The first that was scanned -/

/-- The first of some files that was scanned. -/
def First (files tried : List String) (file : String) : Prop :=
  ∃ before after, tried = before ++ file :: after ∧ file ∈ files ∧ ∀ other ∈ before, other ∉ files

/-- None of the files that an entry may come from was scanned. -/
def Unresolved (files : List String) (declared : String) : Prop := ∀ file, Candidate declared file → file ∉ files

/-- What an entry yields: itself if it was scanned, else the first of its candidates that was, else itself. -/
inductive Yields (files : List String) (declared : String) : String → Prop
  | scanned (here : declared ∈ files) : Yields files declared declared
  | source {file : String} (away : declared ∉ files) (first : First files (candidates declared) file) :
      Yields files declared file
  | missing (none : Unresolved files declared) : Yields files declared declared

variable {files : List String}

theorem find?_eq_some_iff {tried : List String} {file : String} :
    tried.find? files.contains = some file ↔ First files tried file := by
  rw [List.find?_eq_some_iff_append, First]
  simp only [List.contains_eq_mem, decide_eq_true_eq, Bool.not_eq_true', decide_eq_false_iff_not]
  constructor
  · rintro ⟨here, before, after, split, none⟩
    exact ⟨before, after, split, here, none⟩
  · rintro ⟨before, after, split, here, none⟩
    exact ⟨here, before, after, split, none⟩

theorem resolve?_eq_some_iff {declared file : String} :
    resolve? files declared = some file ↔ First files (candidates declared) file := find?_eq_some_iff

theorem resolve?_eq_none_iff {declared : String} : resolve? files declared = none ↔ Unresolved files declared := by
  rw [resolve?, List.find?_eq_none]
  simp only [mem_candidates, List.contains_eq_mem, decide_eq_true_eq, Unresolved]

theorem First.scanned {tried : List String} {file : String} (first : First files tried file) : file ∈ files := by
  obtain ⟨before, after, split, here, none⟩ := first
  exact here

theorem yields_iff {declared file : String} :
    Yields files declared file ↔ (resolve? files declared).getD declared = file := by
  have itself (here : declared ∈ files) : resolve? files declared = some declared :=
    resolve?_eq_some_iff.2 ⟨[], _, rfl, here, by simp⟩
  constructor
  · intro yields
    cases yields with
    | scanned here => rw [itself here, Option.getD_some]
    | source away first => rw [resolve?_eq_some_iff.2 first, Option.getD_some]
    | missing none => rw [resolve?_eq_none_iff.2 none, Option.getD_none]
  · rintro rfl
    by_cases here : declared ∈ files
    · rw [itself here]
      exact .scanned here
    · cases found : resolve? files declared with
      | none => exact .missing (resolve?_eq_none_iff.1 found)
      | some file => exact .source here (resolve?_eq_some_iff.1 found)

theorem mem_resolved {declared : List String} {file : String} :
    file ∈ resolved files declared ↔
      (∃ d ∈ declared, First files (candidates d) file) ∨
        (∀ d ∈ declared, Unresolved files d) ∧ ∃ stem ∈ usualStems, First files (withExtensions stem) file := by
  have found (file : String) : file ∈ declared.filterMap (resolve? files) ↔
      ∃ d ∈ declared, First files (candidates d) file := by
    simp only [List.mem_filterMap, resolve?_eq_some_iff]
  have usual : file ∈ (usualStems.filterMap fun stem => (withExtensions stem).find? files.contains) ↔
      ∃ stem ∈ usualStems, First files (withExtensions stem) file := by
    simp only [List.mem_filterMap, find?_eq_some_iff]
  have none : declared.filterMap (resolve? files) = [] ↔ ∀ d ∈ declared, Unresolved files d := by
    rw [List.filterMap_eq_nil_iff]
    simp only [resolve?_eq_none_iff]
  unfold resolved
  split
  · rename_i empty
    rw [usual, ← found, empty]
    constructor
    · intro first
      exact .inr ⟨none.1 empty, first⟩
    · rintro (member | ⟨-, first⟩)
      · cases member
      · exact first
  · rename_i filled
    rw [found]
    have some : ¬ ∀ d ∈ declared, Unresolved files d := fun all => filled (none.2 all)
    simp [some]

/-! ## What is offered -/

/-- There is a package, and it declares the entry. -/
def Declared (package : Option Package) (entry : String) : Prop := ∃ p ∈ package, p.Declares entry

/-- What a surface says of a package, of the files that were scanned and of what they export.  Its entries are what the
declared ones yield, and the usual files just if no declared entry leads to a source; its names are those that the
scanned files among the entries export. -/
structure Reflects (s : Surface) (package : Option Package) (files : List String) (exports : List Export) : Prop where
  growing : s.entryPoints.Pairwise fun a b => a < b
  sound : ∀ entry ∈ s.entryPoints, entry ∈ files ∨ Declared package entry ∧ Unresolved files entry
  complete : ∀ declared, Declared package declared →
    ∃ entry ∈ s.entryPoints, ∀ other, Yields files declared other ↔ other = entry
  entries : ∀ entry, entry ∈ s.entryPoints ↔
    (∃ declared, Declared package declared ∧ Yields files declared entry) ∨
      (∀ declared, Declared package declared → Unresolved files declared) ∧
        ∃ stem ∈ usualStems, First files (withExtensions stem) entry
  namesGrowing : s.publicNames.Pairwise fun m n => m.place < n.place
  names : ∀ n, n ∈ s.publicNames ↔
    n.file ∈ s.entryPoints ∧ n.file ∈ files ∧ ∃ e ∈ exports, n = ⟨e.file, e.name, e.kind⟩

variable (package : Option Package) (files : List String) (exports : List Export)

theorem mem_declared {entry : String} :
    entry ∈ (package.map (·.entries)).getD [] ↔ Declared package entry := by
  cases package with
  | none => simp [Declared]
  | some p => simp [Declared, Package.mem_entries]

theorem mem_entryPoints {entry : String} : entry ∈ (make package files exports).entryPoints ↔
    entry ∈ resolved files ((package.map (·.entries)).getD []) ∨ Declared package entry ∧ Unresolved files entry := by
  rw [make, SortedSet.mem_toList_ofList, List.mem_append, List.mem_filter, mem_declared, Option.isNone_iff_eq_none,
    resolve?_eq_none_iff]

theorem scanned_of_mem_resolved {declared : List String} {file : String} (member : file ∈ resolved files declared) :
    file ∈ files := by
  rcases mem_resolved.1 member with ⟨d, -, first⟩ | ⟨-, stem, -, first⟩
  · exact first.scanned
  · exact first.scanned

theorem mem_resolved_iff {file : String} : file ∈ resolved files ((package.map (·.entries)).getD []) ↔
    file ∈ (make package files exports).entryPoints ∧ file ∈ files := by
  rw [mem_entryPoints]
  constructor
  · intro member
    exact ⟨.inl member, scanned_of_mem_resolved files member⟩
  · rintro ⟨member | ⟨-, none⟩, here⟩
    · exact member
    · exact absurd here (none file .itself)

theorem make_reflects : (make package files exports).Reflects package files exports where
  growing := SortedSet.growing _
  sound entry member := by
    rcases (mem_entryPoints package files exports).1 member with found | missing
    · exact .inl (scanned_of_mem_resolved files found)
    · exact .inr missing
  complete declared given := by
    refine ⟨(resolve? files declared).getD declared, ?_, fun other => yields_iff.trans eq_comm⟩
    rw [mem_entryPoints]
    cases found : resolve? files declared with
    | none => exact .inr ⟨given, resolve?_eq_none_iff.1 found⟩
    | some file =>
      exact .inl (mem_resolved.2 (.inl ⟨declared, (mem_declared package).2 given, resolve?_eq_some_iff.1 found⟩))
  entries entry := by
    rw [mem_entryPoints, mem_resolved]
    simp only [mem_declared]
    constructor
    · rintro ((⟨d, given, first⟩ | usual) | ⟨given, none⟩)
      · exact .inl ⟨d, given, yields_iff.2 (by rw [resolve?_eq_some_iff.2 first, Option.getD_some])⟩
      · exact .inr usual
      · exact .inl ⟨entry, given, .missing none⟩
    · rintro (⟨d, given, yields⟩ | usual)
      · rw [yields_iff] at yields
        cases found : resolve? files d with
        | none =>
          rw [found, Option.getD_none] at yields
          subst yields
          exact .inr ⟨given, resolve?_eq_none_iff.1 found⟩
        | some file =>
          rw [found, Option.getD_some] at yields
          subst yields
          exact .inl (.inl ⟨d, given, resolve?_eq_some_iff.1 found⟩)
      · exact .inl (.inr usual)
  namesGrowing := pairwise_dedupBy_mergeSort PublicName.atMost_iff PublicName.place_injective _
  names n := by
    rw [← and_assoc, ← mem_resolved_iff, make]
    dsimp only
    rw [mem_dedupBy_mergeSort, List.mem_map]
    simp only [List.mem_filter, List.contains_iff_mem]
    constructor
    · rintro ⟨e, ⟨given, here⟩, rfl⟩
      exact ⟨here, e, given, rfl⟩
    · rintro ⟨here, e, given, rfl⟩
      exact ⟨e, ⟨given, here⟩, rfl⟩

/-- The types that a build makes lead to their source, so the usual file is not looked for. -/
example : (make (some { main := some "./lib.js", types := some "dist/sub/main.d.ts" })
    ["index.ts", "src/sub/main.js", "src/sub/main/index.ts"] []).entryPoints = ["lib.js", "src/sub/main.js"] := by
  decide

end Surface

end Gazetteer
