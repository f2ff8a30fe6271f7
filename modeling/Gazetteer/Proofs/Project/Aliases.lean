import Gazetteer.Project.ImportRules
import Gazetteer.Proofs.Text.Pieces

/-!
# Aliases and packages

A key of `compilerOptions.paths` is written for itself or, if it ends in stars, for what starts with its stem
(`PathKey.Meant`).  Its alias is the key without the stars, so a key with stars and one without leave the same alias.
What an alias covers is therefore what its key is written for and two sorts of specifiers more (`PathKey.Swallows`):
what goes on behind a key without a star, and a key without the slashes at its end unless they are one slash before
stars (`PathKey.covers_iff`).  Main statement: which imports are internal, for every configuration that can be read
(`ImportRules.isInternal_of_parse`).
-/

namespace Gazetteer

set_option autoImplicit false

/-- What is left of a text that is trimmed of one character at its end. -/
theorem Text.trimEnd_single_eq_iff {c : Char} {cs left : List Char} :
    trimEnd (· = c) cs = left ↔ (∃ n, cs = left ++ List.replicate n c) ∧ left.getLast? ≠ some c := by
  rw [trimEnd_eq_iff]
  refine and_congr ?_ ?_
  · constructor
    · rintro ⟨cut, rfl, all⟩
      refine ⟨cut.length, ?_⟩
      rw [← List.eq_replicate_of_mem fun d member => of_decide_eq_true (all d member)]
    · rintro ⟨n, rfl⟩
      exact ⟨_, rfl, fun d member => decide_eq_true (List.eq_of_mem_replicate member)⟩
  · constructor
    · intro other last
      exact of_decide_eq_false (other c last) rfl
    · intro other d last
      refine decide_eq_false fun same => other ?_
      rwa [← same]

namespace PathKey

/-- What a key is written for: itself, what starts with the stem before its stars, or the folder that the stem names. -/
inductive Meant (key specifier : List Char) : Prop
  | exact (same : specifier = key)
  | below {stem : List Char} {n : Nat} (starred : key = stem ++ List.replicate (n + 1) '*')
      (begins : stem <+: specifier)
  | folder {n : Nat} (bare : specifier.getLast? ≠ some '/')
      (spelled : key = specifier ++ ['/'] ++ List.replicate (n + 1) '*')

/-- What the alias of a key covers although the key is not written for it. -/
inductive Swallows (key specifier : List Char) : Prop
  /-- The key has no star at its end, and the specifier goes on behind it. -/
  | longer {rest : List Char} (filled : key ≠ []) (unstarred : key.getLast? ≠ some '*') (more : rest ≠ [])
      (begins : specifier = key ++ rest)
  /-- The key has slashes at its end, and they are not one slash before stars. -/
  | slashes {m n : Nat} (bare : specifier.getLast? ≠ some '/') (some : 0 < m) (other : ¬ (m = 1 ∧ 0 < n))
      (spelled : key = specifier ++ List.replicate m '/' ++ List.replicate n '*')

/-- Whether there is nothing but stars; such a key leaves no alias. -/
def OnlyStars (key : List Char) : Prop := ∀ c ∈ key, c = '*'

/-- The alias of a key. -/
def short (key : List Char) : List Char := Text.trimEnd (· = '*') key

variable {key specifier : List Char}

theorem short_eq_nil_iff : short key = [] ↔ OnlyStars key := by
  rw [short, Text.trimEnd_eq_iff]
  simp [OnlyStars]

theorem short_leads (key : List Char) : short key <+: key := by
  obtain ⟨⟨n, spelled⟩, -⟩ := Text.trimEnd_single_eq_iff.1 (rfl : short key = short key)
  exact ⟨_, spelled.symm⟩

theorem short_append_stars (stem : List Char) (n : Nat) : short (stem ++ List.replicate n '*') = short stem := by
  obtain ⟨⟨m, spelled⟩, last⟩ := Text.trimEnd_single_eq_iff.1 (rfl : short stem = short stem)
  refine Text.trimEnd_single_eq_iff.2 ⟨⟨m + n, ?_⟩, last⟩
  rw [List.replicate_add, ← List.append_assoc, ← spelled]

theorem short_of_unstarred (unstarred : key.getLast? ≠ some '*') : short key = key :=
  Text.trimEnd_single_eq_iff.2 ⟨⟨0, (List.append_nil key).symm⟩, unstarred⟩

theorem getLast?_append_replicate {c : Char} {n : Nat} (some : 0 < n) (cs : List Char) :
    (cs ++ List.replicate n c).getLast? = .some c := by
  rw [List.getLast?_append, List.getLast?_replicate, if_neg some.ne', Option.some_or]

theorem short_slashes {m : Nat} (some : 0 < m) (specifier : List Char) (n : Nat) :
    short (specifier ++ List.replicate m '/' ++ List.replicate n '*') = specifier ++ List.replicate m '/' := by
  rw [short_append_stars, short_of_unstarred]
  rw [getLast?_append_replicate some]
  decide

theorem short_folder (specifier : List Char) (n : Nat) :
    short (specifier ++ ['/'] ++ List.replicate n '*') = specifier ++ ['/'] := short_slashes Nat.one_pos specifier n

/-- A specifier without a slash at its end is what is left of itself and slashes. -/
theorem trimEnd_slashes (bare : specifier.getLast? ≠ some '/') (n : Nat) :
    Text.trimEnd (· = '/') (specifier ++ List.replicate n '/') = specifier :=
  Text.trimEnd_single_eq_iff.2 ⟨⟨n, rfl⟩, bare⟩

/-- An alias covers what its key is written for and what it swallows. -/
theorem covers_iff (filled : ¬ OnlyStars key) :
    specifier = Text.trimEnd (· = '/') (short key) ∨ short key <+: specifier ↔
      Meant key specifier ∨ Swallows key specifier := by
  constructor
  · obtain ⟨⟨n, spelled⟩, last⟩ := Text.trimEnd_single_eq_iff.1 (rfl : short key = short key)
    -- how much of the key is stars, and then how much of the alias is slashes, decides what the key is written for
    have below (begins : short key <+: specifier) : Meant key specifier ∨ Swallows key specifier := by
      cases n with
      | succ n => exact .inl (.below spelled begins)
      | zero =>
        rw [List.replicate_zero, List.append_nil] at spelled
        rw [← spelled] at begins last
        obtain ⟨rest, longer⟩ := begins
        cases rest with
        | nil => exact .inl (.exact (by rw [← longer, List.append_nil]))
        | cons c rest =>
          refine .inr (.longer ?_ last (List.cons_ne_nil c rest) longer.symm)
          rintro rfl
          exact filled nofun
    rintro (stripped | begins)
    · obtain ⟨⟨m, slashes⟩, bare⟩ := Text.trimEnd_single_eq_iff.1 stripped.symm
      by_cases one : m = 1 ∧ 0 < n
      · obtain ⟨rfl, some⟩ := one
        obtain ⟨n, rfl⟩ := Nat.exists_eq_succ_of_ne_zero some.ne'
        rw [slashes] at spelled
        exact .inl (.folder bare spelled)
      · cases m with
        | zero => exact below ⟨[], by rw [slashes, List.replicate_zero, List.append_nil, List.append_nil]⟩
        | succ m => exact .inr (.slashes bare m.succ_pos one (by rw [← slashes, ← spelled]))
    · exact below begins
  · rintro (meant | swallows)
    · cases meant with
      | exact same =>
        rw [same]
        exact .inr (short_leads key)
      | below starred begins =>
        rw [starred, short_append_stars]
        exact .inr ((short_leads _).trans begins)
      | folder bare spelled =>
        rw [spelled, short_folder]
        exact .inl (trimEnd_slashes bare 1).symm
    · cases swallows with
      | longer _ unstarred _ begins =>
        rw [short_of_unstarred unstarred, begins]
        exact .inr (List.prefix_append key _)
      | slashes bare some other spelled =>
        rw [spelled, short_slashes some]
        exact .inl (trimEnd_slashes bare _).symm

/-- No key is written for what it swallows. -/
theorem not_meant_of_swallows (swallows : Swallows key specifier) : ¬ Meant key specifier := by
  intro meant
  cases swallows with
  | longer _ unstarred more begins =>
    cases meant with
    | exact same =>
      rw [same] at begins
      exact more (List.self_eq_append_right.1 begins)
    | below starred | folder _ starred =>
      rw [starred, getLast?_append_replicate (Nat.succ_pos _)] at unstarred
      exact unstarred rfl
  | @slashes m n bare some other spelled =>
    have stripped : short key = specifier ++ List.replicate m '/' := by rw [spelled, short_slashes some]
    have longer : specifier.length < (short key).length := by
      rw [stripped, List.length_append, List.length_replicate]
      exact Nat.lt_add_of_pos_right some
    cases meant with
    | exact same =>
      rw [same] at longer
      exact (short_leads key).length_le.not_gt longer
    | below starred begins =>
      have shorter := ((short_leads _).trans begins).length_le
      rw [← short_append_stars, ← starred] at shorter
      exact shorter.not_gt longer
    | @folder k _ again =>
      have one : m = 1 := by
        rw [again, short_folder] at stripped
        simpa using (congrArg List.length stripped).symm
      have lengths := congrArg List.length (spelled.symm.trans again)
      simp [one] at lengths
      exact other ⟨one, by omega⟩

end PathKey

/-! ## Configurations -/

namespace ProjectFile

variable {options : Option Json} {file text : String} {p : ProjectFile}

/-- The keys of `compilerOptions.paths`. -/
def pathKeysOf (options : Option Json) : List String :=
  match options.bind (·.get? "paths") with
  | some (.object members) => members.map (·.1)
  | _ => []

/-- The keys of `compilerOptions.paths` in the text of a configuration. -/
def pathKeys (text : String) : List String :=
  match Json.parse (String.ofList (stripComments text.toList)) with
  | .ok v => pathKeysOf (v.get? "compilerOptions")
  | .error _ => []

theorem aliasesOf_eq (options : Option Json) :
    aliasesOf options =
      ((((pathKeysOf options).map fun key => String.ofList (PathKey.short key.toList)).filter fun a =>
        !a.isEmpty).mergeSort fun a b => a ≤ b).eraseDups := by
  unfold aliasesOf pathKeysOf
  generalize options.bind _ = held
  cases held with
  | none => simp
  | some v =>
    cases v with
    | object members =>
      rw [List.map_map]
      rfl
    | _ => simp

/-- The aliases are those of the keys that are more than stars. -/
theorem mem_aliasesOf {a : String} :
    a ∈ aliasesOf options ↔
      ∃ key ∈ pathKeysOf options, ¬ PathKey.OnlyStars key.toList ∧ a.toList = PathKey.short key.toList := by
  rw [aliasesOf_eq, List.mem_eraseDups, List.mem_mergeSort, List.mem_filter, List.mem_map]
  constructor
  · rintro ⟨⟨key, listed, rfl⟩, filled⟩
    refine ⟨key, listed, ?_, String.toList_ofList⟩
    rw [← PathKey.short_eq_nil_iff]
    intro empty
    simp [empty] at filled
  · rintro ⟨key, listed, filled, spelled⟩
    refine ⟨⟨key, listed, by rw [← spelled, String.ofList_toList]⟩, ?_⟩
    rw [← PathKey.short_eq_nil_iff, ← spelled] at filled
    simpa using filled

theorem mem_aliases_of_parse {a : String} (read : parse? file text = some p) :
    a ∈ p.aliases ↔ ∃ key ∈ pathKeys text, ¬ PathKey.OnlyStars key.toList ∧ a.toList = PathKey.short key.toList := by
  unfold parse? at read
  dsimp only at read
  split at read
  · cases read
  · rename_i v parsed
    cases read
    rw [pathKeys, parsed]
    exact mem_aliasesOf

end ProjectFile

namespace ImportRules

open ProjectFile (pathKeys)

variable {file text specifier : String} {prefixes : List String} {p : ProjectFile}

theorem covers_iff {a : String} :
    covers a specifier = true ↔
      specifier.toList = Text.trimEnd (· = '/') a.toList ∨ a.toList <+: specifier.toList := by
  rw [covers, Bool.or_eq_true, decide_eq_true_iff, Text.startsWith, List.isPrefixOf_iff_prefix]

theorem isInternal_iff_of_unled (unled : ∀ lead ∈ prefixes, ¬ lead.toList <+: specifier.toList) :
    isInternal ⟨some p, prefixes⟩ specifier = true ↔ ∃ a ∈ p.aliases, covers a specifier = true := by
  have none : prefixes.any (Text.startsWith specifier) = false := by
    rw [List.any_eq_false]
    intro lead listed
    rw [Text.startsWith, List.isPrefixOf_iff_prefix]
    exact unled lead listed
  rw [isInternal, none, Bool.false_or, List.any_eq_true]

theorem isInternal_iff_reached (read : ProjectFile.parse? file text = some p)
    (unled : ∀ lead ∈ prefixes, ¬ lead.toList <+: specifier.toList) :
    isInternal ⟨some p, prefixes⟩ specifier = true ↔ ∃ key ∈ pathKeys text, ¬ PathKey.OnlyStars key.toList ∧
      (PathKey.Meant key.toList specifier.toList ∨ PathKey.Swallows key.toList specifier.toList) := by
  rw [isInternal_iff_of_unled unled]
  constructor
  · rintro ⟨a, listed, covers⟩
    obtain ⟨key, given, filled, spelled⟩ := (ProjectFile.mem_aliases_of_parse read).1 listed
    rw [covers_iff, spelled] at covers
    exact ⟨key, given, filled, (PathKey.covers_iff filled).1 covers⟩
  · rintro ⟨key, given, filled, reached⟩
    refine ⟨String.ofList (PathKey.short key.toList), ?_, ?_⟩
    · exact (ProjectFile.mem_aliases_of_parse read).2 ⟨key, given, filled, String.toList_ofList⟩
    · rw [covers_iff, String.toList_ofList]
      exact (PathKey.covers_iff filled).2 reached

/-- What some key is written for is a key itself, starts with the stem of one, or is a stem without its slash. -/
theorem named_of_meant {key : String} (listed : key ∈ pathKeys text)
    (meant : PathKey.Meant key.toList specifier.toList) :
    specifier ∈ pathKeys text ∨ ∃ stem n, stem ++ String.ofList (List.replicate (n + 1) '*') ∈ pathKeys text ∧
      (stem.toList <+: specifier.toList ∨ specifier ++ "/" = stem) := by
  cases meant with
  | exact same =>
    rw [String.toList_inj.1 same]
    exact .inl listed
  | @below stem n starred begins =>
    refine .inr ⟨String.ofList stem, n, ?_, .inl (by rwa [String.toList_ofList])⟩
    rwa [← String.ofList_append, ← starred, String.ofList_toList]
  | @folder n _ spelled =>
    refine .inr ⟨specifier ++ "/", n, ?_, .inr rfl⟩
    have same : specifier ++ "/" ++ String.ofList (List.replicate (n + 1) '*') = key := by
      rw [← String.toList_inj, spelled]
      simp
    rwa [same]

/-- An import that starts with no internal prefix is internal exactly if a key of the configuration is written for it or
swallows it, and no key does both.  Where none swallows it, it is a key itself, starts with the stem of a key that ends
in stars, or is such a stem without its slash. -/
theorem isInternal_of_parse (read : ProjectFile.parse? file text = some p)
    (unled : ∀ lead ∈ prefixes, ¬ lead.toList <+: specifier.toList) :
    (isInternal ⟨some p, prefixes⟩ specifier = true ↔ ∃ key ∈ pathKeys text, ¬ PathKey.OnlyStars key.toList ∧
      (PathKey.Meant key.toList specifier.toList ∨ PathKey.Swallows key.toList specifier.toList)) ∧
    (∀ key, PathKey.Swallows key specifier.toList → ¬ PathKey.Meant key specifier.toList) ∧
    ((∀ key ∈ pathKeys text, ¬ PathKey.Swallows key.toList specifier.toList) →
      isInternal ⟨some p, prefixes⟩ specifier = true →
        specifier ∈ pathKeys text ∨ ∃ stem n, stem ++ String.ofList (List.replicate (n + 1) '*') ∈ pathKeys text ∧
          (stem.toList <+: specifier.toList ∨ specifier ++ "/" = stem)) := by
  refine ⟨isInternal_iff_reached read unled, fun key => PathKey.not_meant_of_swallows, fun unswallowed internal => ?_⟩
  obtain ⟨key, listed, -, meant | swallows⟩ := (isInternal_iff_reached read unled).1 internal
  · exact named_of_meant listed meant
  · exact absurd swallows (unswallowed key listed)

namespace Sample

/-- A configuration with one key, which has no star. -/
def unstarred : String := "\x7b\"compilerOptions\":\x7b\"paths\":\x7b\"react\":[]\x7d\x7d\x7d"

end Sample

/-- The one key is `react`, which is not written for `react-dom`, and yet this is internal. -/
theorem isInternal_of_parse_longer :
    ProjectFile.parse? "tsconfig.json" Sample.unstarred = some ⟨"tsconfig.json", ["react"], false⟩ ∧
      (∀ lead ∈ ["./"], ¬ lead.toList <+: "react-dom".toList) ∧ pathKeys Sample.unstarred = ["react"] ∧
      ¬ PathKey.Meant "react".toList "react-dom".toList ∧
      isInternal ⟨some ⟨"tsconfig.json", ["react"], false⟩, ["./"]⟩ "react-dom" = true := by
  have read : ProjectFile.parse? "tsconfig.json" Sample.unstarred = some ⟨"tsconfig.json", ["react"], false⟩ := by
    decide +kernel
  have unled : ∀ lead ∈ ["./"], ¬ lead.toList <+: "react-dom".toList := by decide
  have keys : pathKeys Sample.unstarred = ["react"] := by decide +kernel
  have spelled : "react".toList ++ "-dom".toList = "react-dom".toList := by decide
  have swallows : PathKey.Swallows "react".toList "react-dom".toList :=
    .longer (by decide) (by decide) (by decide) spelled
  have filled : ¬ PathKey.OnlyStars "react".toList := fun stars => absurd (stars 'r' (by decide)) (by decide)
  obtain ⟨exactly, apart, -⟩ := isInternal_of_parse read unled
  refine ⟨read, unled, keys, apart _ swallows, exactly.2 ⟨"react", ?_, filled, .inr swallows⟩⟩
  rw [keys]
  exact List.mem_singleton_self _

end ImportRules

end Gazetteer
