import Gazetteer.Project.Context
import Gazetteer.Proofs.Outcome
import Gazetteer.Proofs.Text.Utf8

/-!
# Folders that are passed over

Whether a folder is passed over is decided by one name, an underscore, that stands for all that may lie in it.  A
pattern that takes this name with stars matches every path below the folder (`Glob.accepts_append`); one that ends on
the name itself, with a character, a class or a question mark, may match nothing else there.  So a folder that is not
left out itself is passed over for one of two reasons, and where it is for the first, all below it is left out
(`ScanContext.isExcluded_folder`).
-/

namespace Gazetteer

set_option autoImplicit false

namespace Glob

/-! ## Tokens that match nothing -/

mutual

/-- Whether a token can match no bytes at all. -/
def Token.skips : Token → Bool
  | .many | .leadingFolders => true
  | .alternatives branches => areVoid branches || skipsAny branches
  | _ => false

/-- Whether tokens can, all of them. -/
def skipsAll : List Token → Bool
  | [] => true
  | t :: ts => t.skips && skipsAll ts

/-- Whether one of some branches can that is not void. -/
def skipsAny : List (List Token) → Bool
  | [] => false
  | ts :: rest => (!isVoid ts && skipsAll ts) || skipsAny rest

end

theorem bytesOf_ne_nil (c : Char) : bytesOf c ≠ [] := by
  rw [bytesOf, Text.Utf8.encode_eq_flatMap]
  simp [String.utf8EncodeChar_ne_nil]

theorem exactly_nil (next : Next) {lead : List UInt8} (filled : lead ≠ []) : exactly lead next [] = false := by
  cases lead with
  | nil => exact absurd rfl filled
  | cons => rfl

theorem Token.accepts_alternatives (separate : Bool) (next : Next) (branches : List (List Token)) (bs : List UInt8) :
    (Token.alternatives branches).accepts separate next bs =
      if areVoid branches then next bs else acceptsAny separate next branches bs := rfl

theorem acceptsAny_cons (separate : Bool) (next : Next) (ts : List Token) (rest : List (List Token))
    (bs : List UInt8) :
    acceptsAny separate next (ts :: rest) bs =
      ((!isVoid ts && acceptsAll separate next ts bs) || acceptsAny separate next rest bs) := rfl

mutual

theorem Token.accepts_nil (separate : Bool) (next : Next) (t : Token) :
    t.accepts separate next [] = (t.skips && next []) := by
  match t with
  | .char c => exact exactly_nil next (bytesOf_ne_nil c)
  | .any | .oneOf .. | .inside | .betweenFolders | .many => rfl
  | .leadingFolders => exact Bool.or_false _
  | .alternatives branches =>
    rw [Token.accepts_alternatives, Token.skips]
    split
    · rename_i void
      rw [void, Bool.true_or, Bool.true_and]
    · rename_i void
      rw [acceptsAny_nil separate next branches, Bool.eq_false_of_not_eq_true void, Bool.false_or]

/-- Tokens match no bytes if each of them can and what follows does. -/
theorem acceptsAll_nil (separate : Bool) (next : Next) (ts : List Token) :
    acceptsAll separate next ts [] = (skipsAll ts && next []) := by
  match ts with
  | [] => rfl
  | t :: ts => rw [acceptsAll, skipsAll, Token.accepts_nil, acceptsAll_nil separate next ts, Bool.and_assoc]

theorem acceptsAny_nil (separate : Bool) (next : Next) (branches : List (List Token)) :
    acceptsAny separate next branches [] = (skipsAny branches && next []) := by
  match branches with
  | [] => rfl
  | ts :: rest =>
    rw [acceptsAny_cons, skipsAny, acceptsAll_nil separate next ts, acceptsAny_nil separate next rest,
      Bool.and_or_distrib_right, Bool.and_assoc]

end

/-! ## The end of what is matched -/

mutual

/-- Whether a token for one character can take a byte as the last that the token matches. -/
def Token.endsOn (b : UInt8) : Token → Bool
  | .char c => (bytesOf c).getLast? == some b
  | .any => true
  | .oneOf negated ranges => ranges.any (inRange b) != negated
  | .alternatives branches => endsOnAny b branches
  | _ => false

/-- Whether a token that does so is behind all that tokens need to match. -/
def endsOnAll (b : UInt8) : List Token → Bool
  | [] => false
  | t :: ts => endsOnAll b ts || (t.endsOn b && skipsAll ts)

/-- Whether one is in some branch. -/
def endsOnAny (b : UInt8) : List (List Token) → Bool
  | [] => false
  | ts :: rest => endsOnAll b ts || endsOnAny b rest

end

/-- Whether a pattern can match a last byte with a token for one character. -/
def endsOn (g : Glob) (b : UInt8) : Bool := endsOnAll b g.tokens

theorem exactly_iff {lead bs : List UInt8} {next : Next} :
    exactly lead next bs = true ↔ ∃ rest, bs = lead ++ rest ∧ next rest = true := by
  rw [exactly, Bool.and_eq_true, List.isPrefixOf_iff_prefix]
  constructor
  · rintro ⟨⟨rest, rfl⟩, follows⟩
    rw [List.drop_left] at follows
    exact ⟨rest, rfl, follows⟩
  · rintro ⟨rest, rfl, follows⟩
    rw [List.drop_left]
    exact ⟨⟨rest, rfl⟩, follows⟩

theorem bytes_iff {bs : List UInt8} {next : Next} :
    bytes (fun _ => true) next bs = true ↔ ∃ front back, bs = front ++ back ∧ next back = true := by
  induction bs with
  | nil =>
    constructor
    · exact fun follows => ⟨[], [], rfl, follows⟩
    · rintro ⟨front, back, split, follows⟩
      rwa [(List.append_eq_nil_iff.1 split.symm).2] at follows
  | cons b bs ih =>
    rw [bytes, Bool.true_and, Bool.or_eq_true, ih]
    constructor
    · rintro (follows | ⟨front, back, rfl, follows⟩)
      · exact ⟨[], b :: bs, rfl, follows⟩
      · exact ⟨b :: front, back, rfl, follows⟩
    · rintro ⟨front, back, split, follows⟩
      cases front with
      | nil =>
        left
        rwa [show b :: bs = back from split]
      | cons first front =>
        obtain ⟨-, rfl⟩ := List.cons.inj split
        exact .inr ⟨front, back, rfl, follows⟩

/-! ## Other bytes in the place of the last -/

/-- What matches with a byte at its end matches with other bytes in place of this byte, and what matches nothing
still does. -/
structure Carries (b : UInt8) (others : List UInt8) (next next' : Next) : Prop where
  last : ∀ front, next (front ++ [b]) = true → next' (front ++ others) = true
  nothing : next [] = true → next' [] = true

section Carries

variable {b : UInt8} {others : List UInt8} {next next' : Next}

theorem Carries.exactly (carries : Carries b others next next') {lead : List UInt8}
    (spared : lead.getLast? ≠ some b ∨ next [] = false) :
    Carries b others (Glob.exactly lead next) (Glob.exactly lead next') where
  last front matched := by
    obtain ⟨rest, split, follows⟩ := exactly_iff.1 matched
    obtain rfl | ⟨rest, end', rfl⟩ := List.eq_nil_or_concat' rest
    · rw [List.append_nil] at split
      obtain ends | stuck := spared
      · exact absurd (split ▸ List.getLast?_concat) ends
      · rw [stuck] at follows
        cases follows
    · rw [← List.append_assoc] at split
      obtain ⟨rfl, same⟩ := List.append_inj' split rfl
      cases same
      exact exactly_iff.2 ⟨rest ++ others, List.append_assoc .., carries.last rest follows⟩
  nothing matched := by
    obtain ⟨rest, split, follows⟩ := exactly_iff.1 matched
    obtain ⟨rfl, rfl⟩ := List.append_eq_nil_iff.1 split.symm
    exact exactly_iff.2 ⟨[], rfl, carries.nothing follows⟩

theorem Carries.byte (carries : Carries b others next next') {p : UInt8 → Bool}
    (spared : p b = false ∨ next [] = false) : Carries b others (Glob.byte p next) (Glob.byte p next') where
  last front matched := by
    cases front with
    | nil =>
      obtain ⟨passes, follows⟩ := Bool.and_eq_true_iff.1 matched
      obtain fails | stuck := spared
      · rw [fails] at passes
        cases passes
      · rw [stuck] at follows
        cases follows
    | cons first front =>
      obtain ⟨passes, follows⟩ := Bool.and_eq_true_iff.1 matched
      exact Bool.and_eq_true_iff.2 ⟨passes, carries.last front follows⟩
  nothing matched := by cases matched

theorem Carries.bytes (carries : Carries b others next next') :
    Carries b others (Glob.bytes (fun _ => true) next) (Glob.bytes (fun _ => true) next') where
  last front matched := by
    obtain ⟨taken, rest, split, follows⟩ := bytes_iff.1 matched
    obtain rfl | ⟨rest, end', rfl⟩ := List.eq_nil_or_concat' rest
    · exact bytes_iff.2 ⟨front ++ others, [], (List.append_nil _).symm, carries.nothing follows⟩
    · rw [← List.append_assoc] at split
      obtain ⟨rfl, same⟩ := List.append_inj' split rfl
      cases same
      exact bytes_iff.2 ⟨taken, rest ++ others, List.append_assoc .., carries.last rest follows⟩
  nothing := carries.nothing

theorem Carries.or {next₁ next₁' : Next} (carries : Carries b others next next')
    (carries₁ : Carries b others next₁ next₁') :
    Carries b others (fun bs => next bs || next₁ bs) (fun bs => next' bs || next₁' bs) where
  last front matched := Bool.or_eq_true_iff.2 <|
    (Bool.or_eq_true_iff.1 matched).imp (carries.last front) (carries₁.last front)
  nothing matched := Bool.or_eq_true_iff.2 <|
    (Bool.or_eq_true_iff.1 matched).imp carries.nothing carries₁.nothing

/-- Any folders, each with the slash at its end, or none. -/
theorem Carries.folders (carries : Carries b others next next') (plain : [slash].getLast? ≠ some b) :
    Carries b others (fun bs => next bs || Glob.bytes (fun _ => true) (Glob.exactly [slash] next) bs)
      (fun bs => next' bs || Glob.bytes (fun _ => true) (Glob.exactly [slash] next') bs) :=
  carries.or (carries.exactly (.inl plain)).bytes

mutual

/-- In a pattern whose stars cross slashes, a token hands on what follows it, unless the token itself takes the byte
and all that follows may match nothing. -/
theorem Token.carries {next next' : Next} (carries : Carries b others next next')
    (plain : [slash].getLast? ≠ some b) (t : Token) (spared : t.endsOn b = false ∨ next [] = false) :
    Carries b others (t.accepts false next) (t.accepts false next') := by
  match t with
  | .char c => exact carries.exactly (spared.imp_left beq_eq_false_iff_ne.1)
  | .any => exact carries.byte spared
  | .many => exact carries.bytes
  | .leadingFolders => exact carries.folders plain
  | .inside => exact carries.bytes.exactly (.inl plain)
  | .betweenFolders => exact (carries.folders plain).exactly (.inl plain)
  | .oneOf negated ranges => exact carries.byte spared
  | .alternatives branches =>
    by_cases void : areVoid branches = true
    · have same (next : Next) : (Token.alternatives branches).accepts false next = next := by
        funext bs
        rw [Token.accepts_alternatives, if_pos void]
      rwa [same, same]
    · have same (next : Next) :
          (Token.alternatives branches).accepts false next = acceptsAny false next branches := by
        funext bs
        rw [Token.accepts_alternatives, if_neg void]
      rw [same, same]
      exact acceptsAny_carries carries plain branches spared

theorem acceptsAll_carries {next next' : Next} (carries : Carries b others next next')
    (plain : [slash].getLast? ≠ some b) (ts : List Token) (spared : endsOnAll b ts = false ∨ next [] = false) :
    Carries b others (acceptsAll false next ts) (acceptsAll false next' ts) := by
  match ts with
  | [] => exact carries
  | t :: ts =>
    rw [endsOnAll, Bool.or_eq_false_iff, Bool.and_eq_false_iff] at spared
    have tail := acceptsAll_carries carries plain ts (spared.imp_left (·.1))
    refine Token.carries tail plain t ?_
    rw [acceptsAll_nil, Bool.and_eq_false_iff]
    obtain ⟨-, head⟩ | stuck := spared
    · exact head.imp_right .inl
    · exact .inr (.inr stuck)

theorem acceptsAny_carries {next next' : Next} (carries : Carries b others next next')
    (plain : [slash].getLast? ≠ some b) (branches : List (List Token))
    (spared : endsOnAny b branches = false ∨ next [] = false) :
    Carries b others (acceptsAny false next branches) (acceptsAny false next' branches) := by
  match branches with
  | [] => exact ⟨fun _ matched => (nomatch matched), fun matched => (nomatch matched)⟩
  | ts :: rest =>
    rw [endsOnAny, Bool.or_eq_false_iff] at spared
    have head := acceptsAll_carries carries plain ts (spared.imp_left (·.1))
    have tail := acceptsAny_carries carries plain rest (spared.imp_left (·.2))
    refine .or ⟨fun front matched => ?_, fun matched => ?_⟩ tail
    · obtain ⟨filled, inner⟩ := Bool.and_eq_true_iff.1 matched
      exact Bool.and_eq_true_iff.2 ⟨filled, head.last front inner⟩
    · obtain ⟨filled, inner⟩ := Bool.and_eq_true_iff.1 matched
      exact Bool.and_eq_true_iff.2 ⟨filled, head.nothing inner⟩

end

end Carries

/-- The byte of an underscore. -/
def underscore : UInt8 := 95

/-- A pattern that matches a path with an underscore at its end, and does not end on it, matches whatever stands in
place of the underscore. -/
theorem accepts_append {g : Glob} (crosses : g.separate = false) {lead : String}
    (probed : g.accepts (lead ++ "_") = true) (spared : g.endsOn underscore = false) (rest : String) :
    g.accepts (lead ++ rest) = true := by
  unfold Glob.accepts at probed ⊢
  split at probed
  · rfl
  · have finished : Carries underscore (Text.Utf8.encode rest) List.isEmpty List.isEmpty :=
      ⟨fun front matched => absurd (List.isEmpty_iff.1 matched) (List.concat_ne_nil _ _), fun matched => matched⟩
    have probe : Text.Utf8.encode "_" = [underscore] := by decide +kernel
    rw [crosses, Text.Utf8.encode_append] at probed ⊢
    rw [probe] at probed
    exact (acceptsAll_carries finished (by decide) g.tokens (.inl spared)).last _ probed

end Glob

namespace ScanContext

open Glob (underscore)

variable {c : ScanContext} {d : String}

theorem separate_of_mem (valid : c.exclude.mapM exclusion = .ok c.excluded) {g : Glob} (listed : g ∈ c.excluded) :
    g.separate = false := by
  obtain ⟨pattern, -, read⟩ := Outcome.exists_of_mem_right (Outcome.mapM_eq_ok.1 valid) listed
  rw [exclusion] at read
  split at read
  · cases read
    rfl
  · cases read

theorem isExcluded_of_mem {relative : String} (named : relative ≠ "") {g : Glob} (listed : g ∈ c.excluded)
    (matched : g.accepts relative = true) (isFolder : Bool) : c.isExcluded relative isFolder = true := by
  rw [isExcluded, Bool.and_eq_true, Bool.or_eq_true, bne_iff_ne, List.any_eq_true]
  exact ⟨named, .inl ⟨g, listed, matched⟩⟩

/-- A folder that no pattern matches is passed over if a pattern matches all paths below it, or if one ends on the
underscore that stands for them.  Unless there is one of the second kind, everything below a folder that is passed over
is left out by its own path. -/
theorem isExcluded_folder (valid : c.exclude.mapM exclusion = .ok c.excluded) (named : d ≠ "")
    (own : c.isExcluded d false = false) :
    (c.isExcluded d true = true ↔
      (∃ g ∈ c.excluded, ∀ rest, g.accepts (d ++ "/" ++ rest) = true) ∨
        ∃ g ∈ c.excluded, g.accepts (d ++ "/_") = true ∧ g.endsOn underscore = true) ∧
      ((∀ g ∈ c.excluded, g.accepts (d ++ "/_") = true → g.endsOn underscore = false) →
        c.isExcluded d true = true → ∀ rest, c.isExcluded (d ++ "/" ++ rest) false = true) := by
  have probe : d ++ "/_" = d ++ "/" ++ "_" := by rw [String.append_assoc]; rfl
  have asked : c.isExcluded d true = true ↔ ∃ g ∈ c.excluded, g.accepts (d ++ "/_") = true := by
    rw [isExcluded, bne_iff_ne.2 named, Bool.true_and, Bool.false_and, Bool.or_false] at own
    rw [isExcluded, own, bne_iff_ne.2 named, Bool.true_and, Bool.false_or, Bool.true_and, List.any_eq_true]
  have sweeps {g : Glob} (listed : g ∈ c.excluded) (matched : g.accepts (d ++ "/_") = true)
      (spared : g.endsOn underscore = false) (rest : String) : g.accepts (d ++ "/" ++ rest) = true :=
    Glob.accepts_append (separate_of_mem valid listed) (probe ▸ matched) spared rest
  refine ⟨asked.trans ⟨?_, ?_⟩, fun spared passed rest => ?_⟩
  · rintro ⟨g, listed, matched⟩
    cases ends : g.endsOn underscore with
    | true => exact .inr ⟨g, listed, matched, ends⟩
    | false => exact .inl ⟨g, listed, sweeps listed matched ends⟩
  · rintro (⟨g, listed, all⟩ | ⟨g, listed, matched, -⟩)
    · exact ⟨g, listed, probe ▸ all "_"⟩
    · exact ⟨g, listed, matched⟩
  · obtain ⟨g, listed, matched⟩ := asked.1 passed
    have below : d ++ "/" ++ rest ≠ "" := by
      rw [String.append_assoc, Ne, String.append_eq_empty_iff]
      exact fun empty => named empty.1
    exact isExcluded_of_mem below listed (sweeps listed matched (spared g listed matched) rest) false

/-- A repository where every name that starts with an underscore is excluded. -/
def underscored : ScanContext where
  root := ["r"]
  manifestDir := ⟨"/r/.cartograph"⟩
  exclude := ["**/_*"]
  excluded := [⟨[.leadingFolders, .char '_', .many], false⟩]
  extensions := ["ts"]
  respectGitignore := true
  staleAfterDays := 7
  strict := false
  imports := ⟨none, []⟩

/-- The folder `src` is passed over though `src/a.ts` in it is not excluded. -/
theorem isExcluded_folder_underscored :
    underscored.exclude.mapM exclusion = .ok underscored.excluded ∧ underscored.isExcluded "src" false = false ∧
      underscored.isExcluded "src" true = true ∧ underscored.isExcluded "src/a.ts" false = false := by
  have valid : underscored.exclude.mapM exclusion = .ok underscored.excluded := by rfl
  have own : underscored.isExcluded "src" false = false := by decide +kernel
  obtain ⟨passed, -⟩ := isExcluded_folder valid (by decide) own
  refine ⟨valid, own, passed.2 (.inr ⟨_, List.mem_singleton.2 rfl, ?_, ?_⟩), ?_⟩ <;> decide +kernel

/-- The patterns of the default configuration do not end on an underscore. -/
example : (({} : Config).exclude.all fun pattern =>
    (exclusion pattern).toOption.any fun g => !g.endsOn underscore) = true := by decide +kernel

end ScanContext

end Gazetteer
