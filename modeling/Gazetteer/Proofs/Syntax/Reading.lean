import Gazetteer.Proofs.Syntax.Faults
import Gazetteer.Proofs.Text.Pieces

/-!
# What the reader builds

Whatever holds of a token, of a node over trees of which it holds, and of a tree that was given another role holds of
every tree that a rule matches (`Syntax.Rule.run_keeps`), those remembered from an earlier attempt included.  So the
reader never flags a tree by itself, the flags of `Syntax.parse` tell where errors are, and a text is refused with the
line of the first error in its tree (`Outline.extractText_cases`).
-/

namespace Gazetteer

set_option autoImplicit false

namespace Syntax

/-! ## Properties that building keeps -/

/-- A property of trees that the reader cannot break, however it puts trees together. -/
structure Buildable (good : Tree → Prop) : Prop where
  leaf (kind : Kind) (row : Nat) (lead text : String) : good (.leaf { kind, row } lead text)
  node (kind : Kind) (row : Nat) {ts : List Tree} (each : ∀ t ∈ ts, good t) : good (.node { kind, row } ts)
  withRole (r : Role) {t : Tree} (had : good t) : good (t.withRole r)

variable {good : Tree → Prop}

/-- Every tree of a match is good. -/
def GoodMatch (good : Tree → Prop) (m : Match) : Prop := ∀ found ∈ m, ∀ t ∈ found.1, good t

/-- Every match that is remembered is good. -/
def GoodProgress (good : Tree → Prop) (p : Progress) : Prop :=
  ∀ (key : Phrase × Nat) (m : Match), p.known[key]? = some m → GoodMatch good m

theorem goodMatch_none : GoodMatch good none := by
  rintro _ ⟨⟩

theorem goodMatch_some {found : List Tree × Cursor} : GoodMatch good (some found) ↔ ∀ t ∈ found.1, good t := by
  constructor
  · exact fun each => each found rfl
  · rintro each _ ⟨⟩
    exact each

theorem goodProgress_start : GoodProgress good {} := by
  intro key m known
  rw [Std.HashMap.getElem?_empty] at known
  cases known

theorem goodProgress_note {p : Progress} (had : GoodProgress good p) (here : Cursor) :
    GoodProgress good (p.note here) := by
  intro key m known
  unfold Progress.note at known
  split at known <;> exact had key m known

theorem goodProgress_insert {p : Progress} (had : GoodProgress good p) {m : Match} (matched : GoodMatch good m)
    (key : Phrase × Nat) : GoodProgress good { p with known := p.known.insert key m } := by
  intro key' m' known
  rw [Std.HashMap.getElem?_insert] at known
  split at known
  · cases known
    exact matched
  · exact had key' m' known

/-! ## Reading steps that keep a property -/

/-- From good memories, a step gives an answer that passes a test, and leaves good memories. -/
def Keeps {α : Type} (good : Tree → Prop) (test : α → Prop) (x : Reading α) : Prop :=
  ∀ p, GoodProgress good p → test (x.run p).1 ∧ GoodProgress good (x.run p).2

variable {α β : Type} {test : α → Prop}

theorem Keeps.pure {a : α} (passed : test a) : Keeps good test (Pure.pure a) := fun _ had => ⟨passed, had⟩

theorem Keeps.bind {passes : β → Prop} {x : Reading α} {k : α → Reading β} (first : Keeps good test x)
    (rest : ∀ a, test a → Keeps good passes (k a)) : Keeps good passes (x >>= k) := by
  intro p had
  obtain ⟨passed, kept⟩ := first p had
  exact rest (x.run p).1 passed (x.run p).2 kept

/-- What follows a match is told for a failure and for trees that are good. -/
theorem Keeps.bindMatch {x : Reading Match} {k : Match → Reading α} (first : Keeps good (GoodMatch good) x)
    (failed : Keeps good test (k none))
    (matched : ∀ ts c, (∀ t ∈ ts, good t) → Keeps good test (k (some (ts, c)))) : Keeps good test (x >>= k) := by
  refine first.bind fun m each => ?_
  match m with
  | none => exact failed
  | some (ts, c) => exact matched ts c (goodMatch_some.1 each)

theorem Keeps.get : Keeps good (GoodProgress good) (MonadState.get : Reading Progress) := fun _ had => ⟨had, had⟩

theorem Keeps.modify {f : Progress → Progress} (kept : ∀ p, GoodProgress good p → GoodProgress good (f p)) :
    Keeps good (fun _ => True) (modify f : Reading PUnit) := fun p had => ⟨trivial, kept p had⟩

theorem Keeps.fail : Keeps good (GoodMatch good) (Pure.pure none) := Keeps.pure goodMatch_none

theorem Keeps.found {found : List Tree × Cursor} (each : ∀ t ∈ found.1, good t) :
    Keeps good (GoodMatch good) (Pure.pure (some found)) := Keeps.pure (goodMatch_some.2 each)

/-- A token that was looked for in vain leaves a note only. -/
theorem note_keeps (here : Cursor) :
    Keeps good (GoodMatch good) (modify (Progress.note here) >>= fun _ => pure none) :=
  (Keeps.modify fun _ had => goodProgress_note had here).bind fun _ _ => .fail

/-! ## Tokens and comments -/

namespace Cursor

variable (built : Buildable good)

include built

theorem good_leaf (c : Cursor) (kind : Kind) (lead : String) (length : Nat) : good (c.leaf kind lead length).1 :=
  built.leaf kind c.row lead (c.take length).1

theorem good_skipComments (c : Cursor) (fuel : Nat) : ∀ t ∈ (c.skipComments fuel).1, good t := by
  induction fuel generalizing c with
  | zero => exact List.forall_mem_nil _
  | succ fuel ih =>
    rw [skipComments]
    dsimp only
    split
    · exact List.forall_mem_cons.2 ⟨good_leaf built .., ih _⟩
    · exact List.forall_mem_nil _

theorem good_skipMarkup (c : Cursor) (fuel : Nat) : ∀ t ∈ (c.skipMarkup fuel).1, good t := by
  induction fuel generalizing c with
  | zero => exact List.forall_mem_nil _
  | succ fuel ih =>
    rw [skipMarkup]
    dsimp only
    split
    · exact List.forall_mem_append.2 ⟨good_skipComments built c _, List.forall_mem_cons.2 ⟨good_leaf built .., ih _⟩⟩
    · exact List.forall_mem_nil _

end Cursor

theorem good_mapLast {f : Tree → Tree} (kept : ∀ t, good t → good (f t)) {ts : List Tree} (each : ∀ t ∈ ts, good t) :
    ∀ t ∈ mapLast f ts, good t := by
  fun_induction mapLast f ts with
  | case1 => exact each
  | case2 t => exact List.forall_mem_singleton.2 (kept t (each t List.mem_cons_self))
  | case3 t ts more ih =>
    exact List.forall_mem_cons.2 ⟨each t List.mem_cons_self, ih fun u inside => each u (List.mem_cons_of_mem t inside)⟩

/-! ## Rules -/

namespace Rule

variable {grammar : Phrase → Rule} {fuel : Nat}

/-- With so much fuel, whatever a rule matches is good. -/
def RunKeeps (good : Tree → Prop) (grammar : Phrase → Rule) (fuel : Nat) : Prop :=
  ∀ rule held c, (∀ t ∈ held, good t) → Keeps good (GoodMatch good) (run grammar fuel rule held c)

/-- With so much fuel, whatever a tree grows into is good. -/
def ExtendKeeps (good : Tree → Prop) (grammar : Phrase → Rule) (fuel : Nat) : Prop :=
  ∀ step t c, good t → Keeps good (fun grown => good grown.1) (run.extend grammar fuel step t c)

theorem good_held : ∀ t ∈ (none : Option Tree), good t := by
  rintro _ ⟨⟩

theorem grow_keeps (run : RunKeeps good grammar fuel) (extend : ExtendKeeps good grammar fuel) (base step : Rule)
    (held : Option Tree) (c : Cursor) :
    Keeps good (GoodMatch good) (Rule.run grammar (fuel + 1) (.grow base step) held c) := by
  rw [Rule.run]
  refine (run base none c good_held).bindMatch .fail fun ts next each => ?_
  dsimp only
  split
  · exact .found each
  · rename_i t last
    refine (extend step t next (each t (List.mem_of_getLast? last))).bind fun grown kept => ?_
    refine .found (List.forall_mem_append.2 ⟨fun u inside => each u (List.dropLast_subset ts inside), ?_⟩)
    exact List.forall_mem_singleton.2 kept

theorem wrap_keeps (built : Buildable good) (run : RunKeeps good grammar fuel) (p : Kind → Bool) (kind : Kind)
    (r : Option Role) (a : Rule) {held : Option Tree} (had : ∀ t ∈ held, good t) (c : Cursor) :
    Keeps good (GoodMatch good) (Rule.run grammar (fuel + 1) (.wrap p kind r a) held c) := by
  rw [Rule.run.eq_def]
  dsimp only
  cases held with
  | none => exact .fail
  | some t =>
    have had : good t := had t rfl
    dsimp only
    split
    · refine (run a none c good_held).bindMatch .fail fun ts next each => ?_
      refine .found (List.forall_mem_singleton.2 (built.node kind _ (List.forall_mem_cons.2 ⟨?_, each⟩)))
      split
      · exact built.withRole _ had
      · exact had
    · exact .fail

/-- One step of a rule, by the form of the rule. -/
theorem runKeeps_succ (built : Buildable good) (run : RunKeeps good grammar fuel)
    (extend : ExtendKeeps good grammar fuel) : RunKeeps good grammar (fuel + 1) := by
  intro rule held c had
  cases rule with
  | nothing =>
    rw [Rule.run]
    exact .found (List.forall_mem_nil _)
  | token kind scan =>
    rw [Rule.run]
    dsimp only
    split
    · refine .found (List.forall_mem_append.2 ⟨Cursor.good_skipComments built c _, ?_⟩)
      exact List.forall_mem_singleton.2 (Cursor.good_leaf built ..)
    · exact note_keeps _
  | rawToken kind scan =>
    rw [Rule.run]
    dsimp only
    split
    · exact .found (List.forall_mem_singleton.2 (Cursor.good_leaf built ..))
    · exact note_keeps c
  | both a b =>
    rw [Rule.run]
    refine (run a held c had).bindMatch .fail fun ts c first => ?_
    refine (run b held c had).bindMatch .fail fun us c second => ?_
    exact .found (List.forall_mem_append.2 ⟨first, second⟩)
  | either a b =>
    rw [Rule.run]
    refine (run a held c had).bindMatch (run b held c had) fun ts c first => ?_
    exact .found first
  | many a =>
    rw [Rule.run]
    refine (run a held c had).bindMatch (.found (List.forall_mem_nil _)) fun ts next first => ?_
    dsimp only
    split
    · exact .found (List.forall_mem_nil _)
    · refine (run (.many a) held next had).bindMatch (.found first) fun us last others => ?_
      exact .found (List.forall_mem_append.2 ⟨first, others⟩)
  | node kind a =>
    rw [Rule.run]
    dsimp only
    refine (run a none _ good_held).bindMatch .fail fun ts next each => ?_
    refine .found (List.forall_mem_append.2 ⟨Cursor.good_skipComments built c _, ?_⟩)
    exact List.forall_mem_singleton.2 (built.node kind _ each)
  | role r a =>
    rw [Rule.run]
    refine (run a held c had).bindMatch .fail fun ts next each => ?_
    have kept : ∀ t, good t → good (t.withRole r) := fun _ => built.withRole r
    exact .found (good_mapLast kept each)
  | phrase s =>
    rw [Rule.run]
    refine Keeps.get.bind fun p known => ?_
    split
    · exact .pure (known _ _ ‹_›)
    · refine (run (grammar s) none c good_held).bind fun m matched => ?_
      refine (Keeps.modify fun p had => goodProgress_insert had matched (s, c.offset)).bind fun _ _ => ?_
      exact .pure matched
  | test p =>
    rw [Rule.run]
    refine .pure ?_
    split
    · exact goodMatch_some.2 (List.forall_mem_nil _)
    · exact goodMatch_none
  | ahead a =>
    rw [Rule.run]
    refine (run a held c had).bindMatch .fail fun ts next each => ?_
    exact .found (List.forall_mem_nil _)
  | absent a =>
    rw [Rule.run]
    refine Keeps.get.bind fun before _ => ?_
    refine (run a held c had).bind fun m _ => ?_
    refine (Keeps.modify fun p kept => ?_).bind fun _ _ => ?_
    · exact kept
    · split
      · exact .found (List.forall_mem_nil _)
      · exact .fail
  | only p a =>
    rw [Rule.run]
    refine (run a held c had).bindMatch .fail fun ts next each => ?_
    dsimp only
    split
    · refine .pure ?_
      split
      · exact goodMatch_some.2 each
      · exact goodMatch_none
    · exact .fail
  | grow base step => exact grow_keeps run extend base step held c
  | wrap p kind r a => exact wrap_keeps built run p kind r a had c
  | markupComments =>
    rw [Rule.run]
    exact .found (Cursor.good_skipMarkup built c _)

theorem extendKeeps_succ (run : RunKeeps good grammar fuel) (extend : ExtendKeeps good grammar fuel) :
    ExtendKeeps good grammar (fuel + 1) := by
  intro step t c had
  rw [Rule.run.extend]
  have held : ∀ u ∈ some t, good u := by
    rintro _ ⟨⟩
    exact had
  refine (run step (some t) c held).bind fun m each => ?_
  split
  · exact extend _ _ _ (goodMatch_some.1 each _ List.mem_cons_self)
  · exact .pure had

/-- Whatever a rule matches is good, and what is remembered stays so. -/
theorem run_keeps (built : Buildable good) (grammar : Phrase → Rule) (fuel : Nat) :
    RunKeeps good grammar fuel ∧ ExtendKeeps good grammar fuel := by
  -- a rule runs and a tree grows by calling each other, so both are told together
  induction fuel with
  | zero =>
    constructor
    · intro rule held c _
      rw [run]
      exact .fail
    · intro step t c had
      rw [run.extend]
      exact .pure had
  | succ fuel ih => exact ⟨runKeeps_succ built ih.1 ih.2, extendKeeps_succ ih.1 ih.2⟩

/-- With nothing remembered yet, whatever a rule matches is good. -/
theorem run_good (built : Buildable good) {rule : Rule} {c last : Cursor} {ts : List Tree} {p : Progress}
    (ran : (rule.run grammar fuel none c).run {} = (some (ts, last), p)) : ∀ t ∈ ts, good t := by
  have kept := (run_keeps built grammar fuel).1 rule none c good_held {} goodProgress_start
  rw [ran] at kept
  exact goodMatch_some.1 kept.1

end Rule

/-! ## What is parsed -/

namespace Tree

/-- Nothing in a tree is flagged or an error. -/
def Plain (t : Tree) : Prop := ∀ u ∈ t.preorder, u.label.faulty = false ∧ u.label.flagged = false

mutual

theorem mem_preorder_trans {u v : Tree} : ∀ {t : Tree}, u ∈ t.preorder → v ∈ u.preorder → v ∈ t.preorder
  | .leaf l lead text, inside, within => by
    obtain rfl := List.mem_singleton.1 inside
    exact within
  | .node l ts, inside, within => by
    obtain rfl | deeper := List.mem_cons.1 inside
    · exact within
    · exact List.mem_cons_of_mem _ (mem_preorders_trans deeper within)

theorem mem_preorders_trans {u v : Tree} :
    ∀ {ts : List Tree}, u ∈ preorders ts → v ∈ u.preorder → v ∈ preorders ts
  | [], inside, _ => absurd inside List.not_mem_nil
  | t :: ts, inside, within => by
    rw [preorders] at inside ⊢
    obtain first | later := List.mem_append.1 inside
    · exact List.mem_append_left _ (mem_preorder_trans first within)
    · exact List.mem_append_right _ (mem_preorders_trans later within)

end

theorem forall_mem_preorders {p : Tree → Prop} (ts : List Tree) (each : ∀ t ∈ ts, ∀ u ∈ t.preorder, p u) :
    ∀ u ∈ preorders ts, p u := by
  induction ts with
  | nil => exact List.forall_mem_nil _
  | cons t ts ih =>
    rw [preorders]
    refine List.forall_mem_append.2 ⟨each t List.mem_cons_self, ih fun u inside => ?_⟩
    exact each u (List.mem_cons_of_mem t inside)

theorem buildable_plain : Buildable Plain where
  leaf _ _ _ _ := List.forall_mem_singleton.2 ⟨rfl, rfl⟩
  node _ _ ts each := List.forall_mem_cons.2 ⟨⟨rfl, rfl⟩, forall_mem_preorders ts each⟩
  withRole r t plain := by
    cases t with
    | leaf l lead text =>
      obtain ⟨sound, unflagged⟩ := plain _ List.mem_cons_self
      exact List.forall_mem_singleton.2 ⟨sound, unflagged⟩
    | node l ts =>
      obtain ⟨⟨sound, unflagged⟩, each⟩ := List.forall_mem_cons.1 plain
      exact List.forall_mem_cons.2 ⟨⟨sound, unflagged⟩, each⟩

end Tree

/-- A text is read as a tree without flags, or as an error. -/
theorem parse_cases (d : Dialect) (source : String) :
    (parse d source).Plain ∨ ∃ p, parse d source = errorTree (withoutMark source.toList) p := by
  unfold parse
  dsimp only
  generalize ran : StateT.run _ _ = result
  obtain ⟨m, p⟩ := result
  match m with
  | some (ts, _) => exact .inl (Tree.buildable_plain.node .program 0 (Rule.run_good Tree.buildable_plain ran))
  | none => exact .inr ⟨p, rfl⟩

/-- The error that stands for a text that is no program. -/
def errorLeaf (row : Nat) : Tree := .leaf { kind := .error, row, faulty := true, flagged := true } "" ""

/-- A text that is no program has one error, on one of its lines. -/
theorem preorder_errorTree (cs : List Char) (p : Progress) :
    ∃ row ≤ cs.count '\n', (errorTree cs p).preorder = [errorTree cs p, errorLeaf row] := by
  obtain ⟨⟨cut, whole, -⟩, -⟩ := Text.trimEnd_eq_iff.1 (rfl : Text.trimEnd Scanner.isGap cs = _)
  refine ⟨_, (Nat.min_le_right _ _).trans ?_, rfl⟩
  have fewer := (List.prefix_append (Text.trimEnd Scanner.isGap cs) cut).sublist.count_le '\n'
  rwa [← whole] at fewer

theorem wellFlagged_errorTree (cs : List Char) (p : Progress) : (errorTree cs p).WellFlagged := by
  obtain ⟨row, -, both⟩ := preorder_errorTree cs p
  intro u inside
  rw [both] at inside
  -- both trees are flagged, and both have the error in them
  obtain rfl | last := List.mem_cons.1 inside
  · refine iff_of_true rfl ⟨errorLeaf row, ?_, rfl⟩
    rw [both]
    exact List.mem_cons_of_mem _ List.mem_cons_self
  · obtain rfl := List.mem_singleton.1 last
    exact iff_of_true rfl ⟨errorLeaf row, List.mem_cons_self, rfl⟩

theorem Tree.Plain.wellFlagged {t : Tree} (plain : t.Plain) : t.WellFlagged := by
  intro u inside
  refine iff_of_false (Bool.eq_false_iff.1 (plain u inside).2) ?_
  rintro ⟨v, within, faulty⟩
  exact Bool.eq_false_iff.1 (plain v (mem_preorder_trans inside within)).1 faulty

/-- The flags of what is parsed tell where errors are. -/
theorem parse_wellFlagged (d : Dialect) (source : String) : (parse d source).WellFlagged := by
  obtain plain | ⟨p, error⟩ := parse_cases d source
  · exact plain.wellFlagged
  · rw [error]
    exact wellFlagged_errorTree _ p

theorem count_withoutMark (cs : List Char) : (withoutMark cs).count '\n' = cs.count '\n' := by
  unfold withoutMark
  split
  · rw [List.count_cons_of_ne (by decide)]
  · rfl

/-- An error is on a line of the text. -/
theorem row_of_faulty {d : Dialect} {source : String} {u : Tree} (inside : u ∈ (parse d source).preorder)
    (faulty : u.isFaulty = true) : u.label.row ≤ source.toList.count '\n' := by
  obtain plain | ⟨p, error⟩ := parse_cases d source
  · exact absurd faulty (Bool.eq_false_iff.1 (plain u inside).1)
  · obtain ⟨row, within, both⟩ := preorder_errorTree (withoutMark source.toList) p
    rw [count_withoutMark] at within
    rw [error, both] at inside
    obtain rfl | last := List.mem_cons.1 inside
    · exact Nat.zero_le _
    · obtain rfl := List.mem_singleton.1 last
      exact within

end Syntax

namespace Outline

open Syntax

/-- A text whose tree is free of errors yields what its tree does, and any other is refused with the line of the first
error in its tree. -/
theorem extractText_cases (file : String) (d : Dialect) (rules : ImportRules) (source : String) :
    (∀ u ∈ (parse d source).preorder, u.isFaulty = false) ∧
        extractText file d rules source = .ok (extractTree file rules (parse d source)) ∨
      ∃ before u behind, (parse d source).preorder = before ++ u :: behind ∧ (∀ v ∈ before, v.isFaulty = false) ∧
        u.isFaulty = true ∧ u.label.row ≤ source.toList.count '\n' ∧
        extractText file d rules source = .error (.syntaxAt u.line) := by
  have told := parse_wellFlagged d source
  cases flagged : (parse d source).label.flagged with
  | false =>
    left
    refine ⟨Tree.sound_of_unflagged told flagged, ?_⟩
    rw [extractText, checked, flagged, if_neg Bool.false_ne_true]
  | true =>
    right
    obtain ⟨before, u, behind, split, sound, faulty, found⟩ := Tree.exists_first_of_flagged told flagged
    have inside : u ∈ (parse d source).preorder := by
      rw [split]
      exact List.mem_append_right before List.mem_cons_self
    refine ⟨before, u, behind, split, sound, faulty, row_of_faulty inside faulty, ?_⟩
    rw [extractText, checked, flagged, if_pos rfl, found, Option.getD_some]

end Outline

end Gazetteer
