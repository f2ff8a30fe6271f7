import Gazetteer.Text.Blank
import Mathlib.Data.List.DropRight
import Mathlib.Data.List.Induction

/-!
# The pieces of a text

A separator divides the pieces of a text (`Text.splitBy_append_cons`), so pieces that are led by separators are got back
(`Text.splitBy_led`).  A text without characters of a class is one piece; it is not trimmed, and it is cut where the
first of them follows.  What is left of a text that is trimmed at its end is the one part that ends in another character
and has only characters of the class behind it (`Text.trimEnd_eq_iff`).
-/

namespace Gazetteer.Text

set_option autoImplicit false

variable {p : Char → Bool}

theorem splitBy_ne_nil (cs : List Char) : splitBy p cs ≠ [] := by
  cases cs with
  | nil => exact List.cons_ne_nil _ _
  | cons c cs =>
    unfold splitBy
    split
    · exact List.cons_ne_nil _ _
    · split
      · exact List.cons_ne_nil _ _
      · exact List.cons_ne_nil _ _

theorem splitBy_append_cons {c : Char} (separates : p c = true) (before after : List Char) :
    splitBy p (before ++ c :: after) = splitBy p before ++ splitBy p after := by
  induction before with
  | nil =>
    have here : splitBy p (c :: after) = [] :: splitBy p after := by rw [splitBy, if_pos separates]
    exact here
  | cons b before ih =>
    rw [List.cons_append, splitBy, splitBy, ih]
    split
    · rfl
    · cases pieces : splitBy p before with
      | nil => exact absurd pieces (splitBy_ne_nil before)
      | cons piece pieces => rfl

theorem splitBy_of_whole {cs : List Char} (whole : ∀ c ∈ cs, p c = false) : splitBy p cs = [cs] := by
  induction cs with
  | nil => rfl
  | cons c cs ih =>
    obtain ⟨head, tail⟩ := List.forall_mem_cons.1 whole
    rw [splitBy, head, if_neg Bool.false_ne_true, ih tail]

/-- A text is one piece if nothing in it separates. -/
theorem splitBy_eq_singleton_iff {cs piece : List Char} :
    splitBy p cs = [piece] ↔ (∀ c ∈ cs, p c = false) ∧ cs = piece := by
  constructor
  · intro single
    have whole : ∀ c ∈ cs, p c = false := by
      induction cs generalizing piece with
      | nil => exact nofun
      | cons c cs ih =>
        unfold splitBy at single
        split at single
        · rw [List.cons.injEq] at single
          exact absurd single.2 (splitBy_ne_nil cs)
        · rename_i keeps
          refine List.forall_mem_cons.2 ⟨Bool.eq_false_iff.2 keeps, ?_⟩
          split at single
          · rename_i none
            exact absurd none (splitBy_ne_nil cs)
          · rename_i first rest pieces
            rw [(List.cons.inj single).2] at pieces
            exact ih pieces
    rw [splitBy_of_whole whole, List.singleton_inj] at single
    exact ⟨whole, single⟩
  · rintro ⟨whole, rfl⟩
    exact splitBy_of_whole whole

theorem whole_of_mem_splitBy {cs piece : List Char} (member : piece ∈ splitBy p cs) : ∀ c ∈ piece, p c = false := by
  induction cs generalizing piece with
  | nil =>
    rw [splitBy, List.mem_singleton] at member
    subst member
    exact nofun
  | cons c cs ih =>
    unfold splitBy at member
    split at member
    · obtain rfl | member := List.mem_cons.1 member
      · exact nofun
      · exact ih member
    · rename_i keeps
      split at member
      · rw [List.mem_singleton] at member
        subst member
        exact List.forall_mem_singleton.2 (Bool.eq_false_iff.2 keeps)
      · rename_i first rest pieces
        obtain rfl | member := List.mem_cons.1 member
        · exact List.forall_mem_cons.2 ⟨Bool.eq_false_iff.2 keeps, ih (pieces ▸ List.mem_cons_self)⟩
        · exact ih (pieces ▸ List.mem_cons_of_mem first member)

/-- Pieces with a separator in front of each, behind a text without one. -/
theorem splitBy_led {c : Char} (separates : p c = true) (before : List Char) {pieces : List (List Char)}
    (whole : ∀ b ∈ before, p b = false) (each : ∀ piece ∈ pieces, ∀ b ∈ piece, p b = false) :
    splitBy p (before ++ pieces.flatMap (c :: ·)) = before :: pieces := by
  induction pieces generalizing before with
  | nil => rw [List.flatMap_nil, List.append_nil, splitBy_of_whole whole]
  | cons piece pieces ih =>
    obtain ⟨head, tail⟩ := List.forall_mem_cons.1 each
    rw [List.flatMap_cons, List.cons_append, splitBy_append_cons separates, splitBy_of_whole whole, ih piece head tail,
      List.singleton_append]

/-- Texts with a separator behind each, in front of another. -/
theorem splitBy_closed {c : Char} (separates : p c = true) (texts : List (List Char)) (after : List Char) :
    splitBy p (texts.flatMap (· ++ [c]) ++ after) = texts.flatMap (splitBy p) ++ splitBy p after := by
  induction texts with
  | nil => rfl
  | cons text texts ih =>
    rw [List.flatMap_cons, List.append_assoc, List.append_assoc, List.singleton_append, splitBy_append_cons separates,
      ih, List.flatMap_cons, List.append_assoc]

/-! ## Cutting and trimming -/

theorem cutAt?_of_whole {cs : List Char} (whole : ∀ c ∈ cs, p c = false) : cutAt? p cs = none := by
  induction cs with
  | nil => rfl
  | cons c cs ih =>
    obtain ⟨head, tail⟩ := List.forall_mem_cons.1 whole
    rw [cutAt?, head, if_neg Bool.false_ne_true, ih tail, Option.map_none]

theorem cutAt?_append_cons {c : Char} (separates : p c = true) {before : List Char}
    (whole : ∀ b ∈ before, p b = false) (after : List Char) :
    cutAt? p (before ++ c :: after) = some (before, after) := by
  induction before with
  | nil => rw [List.nil_append, cutAt?, if_pos separates]
  | cons b before ih =>
    obtain ⟨head, tail⟩ := List.forall_mem_cons.1 whole
    rw [List.cons_append, cutAt?, head, if_neg Bool.false_ne_true, ih tail, Option.map_some]

theorem trim_of_whole {cs : List Char} (whole : ∀ c ∈ cs, p c = false) : trim p cs = cs := by
  have start {cs : List Char} (whole : ∀ c ∈ cs, p c = false) : cs.dropWhile p = cs := by
    cases cs with
    | nil => rfl
    | cons c cs => rw [List.dropWhile_cons_of_neg (by rw [whole c List.mem_cons_self]; exact Bool.false_ne_true)]
  rw [trim, trimStart, start whole, trimEnd, start fun c member => whole c (List.mem_reverse.1 member),
    List.reverse_reverse]

/-- What is left of a text that is trimmed at its end. -/
theorem trimEnd_eq_iff {cs left : List Char} :
    trimEnd p cs = left ↔
      (∃ cut, cs = left ++ cut ∧ ∀ c ∈ cut, p c = true) ∧ ∀ c ∈ left.getLast?, p c = false := by
  constructor
  · rintro rfl
    constructor
    · refine ⟨cs.rtakeWhile p, List.rdropWhile_append_rtakeWhile.symm, fun c member => ?_⟩
      exact List.mem_rtakeWhile_imp member
    · intro c last
      obtain ⟨filled, rfl⟩ := List.mem_getLast?_eq_getLast last
      exact Bool.eq_false_iff.2 (List.rdropWhile_last_not p cs filled)
  · rintro ⟨⟨cut, rfl, all⟩, last⟩
    induction cut using List.reverseRecOn with
    | nil =>
      rw [List.append_nil]
      refine List.rdropWhile_eq_self_iff.2 fun filled => ?_
      exact Bool.eq_false_iff.1 (last _ (List.getLast?_eq_getLast_of_ne_nil filled))
    | append_singleton cut c ih =>
      rw [← List.append_assoc]
      refine (List.rdropWhile_concat_pos p _ c (all c (by simp))).trans (ih fun b member => all b ?_)
      exact List.mem_append_left _ member

end Gazetteer.Text
