import Gazetteer.Project.ImportRules
import Mathlib.Data.List.Infix

/-!
# Comments in a configuration

A configuration consists of quoted texts, comments and other characters, the last of which may break off with the text
(`Reading`), and every text can be read in this way (`exists_reading`).  Cutting the comments keeps quoted texts and other
characters as they are, the end of the line behind a comment that has one, and nothing else (`strip_textOf`).  What is
left can be read as the same parts without the comments: where a slash stands by itself no comment follows it, so none
can begin there when a later one is cut (`apart_bare`).  Hence cutting comments twice is cutting them once.
-/

namespace Gazetteer.ProjectFile

set_option autoImplicit false

/-! ## Parts of a configuration -/

/-- A character of a quoted text, alone or behind a backslash. -/
inductive Letter
  | plain (c : Char) (unmarked : c ≠ '"' ∧ c ≠ '\\')
  | escaped (c : Char)

/-- A letter as it is written. -/
def Letter.text : Letter → List Char
  | .plain c _ => [c]
  | .escaped c => ['\\', c]

/-- The letters of a quoted text as they are written. -/
def lettersText (letters : List Letter) : List Char := letters.flatMap Letter.text

/-- A part of a configuration. -/
inductive Part
  | quoted (letters : List Letter)
  /-- A comment to the end of its line. -/
  | line (comment : List Char) (single : '\n' ∉ comment)
  /-- A comment between stars. -/
  | block (comment : List Char) (unclosed : ¬ ['*', '/'] <:+: comment)
  | other (c : Char) (unquoted : c ≠ '"')

namespace Part

/-- A part as it is written. -/
def text : Part → List Char
  | .quoted letters => '"' :: (lettersText letters ++ ['"'])
  | .line comment _ => '/' :: '/' :: (comment ++ ['\n'])
  | .block comment _ => '/' :: '*' :: (comment ++ ['*', '/'])
  | .other c _ => [c]

/-- What stays of a part. -/
def kept : Part → List Char
  | .line _ _ => ['\n']
  | .block _ _ => []
  | p => p.text

/-- What stays of a part, as parts. -/
def bare : Part → List Part
  | .line _ _ => [.other '\n' (by decide)]
  | .block _ _ => []
  | p => [p]

/-- Whether the part is a comment. -/
def isComment : Part → Bool
  | .line _ _ | .block _ _ => true
  | _ => false

end Part

/-- A part that breaks off with the text, if there is one. -/
inductive Tail
  | nothing
  /-- A quoted text, which may break off behind a backslash. -/
  | quoted (letters : List Letter) (cut : Bool)
  | line (comment : List Char) (single : '\n' ∉ comment)
  | block (comment : List Char) (unclosed : ¬ ['*', '/'] <:+: comment)

namespace Tail

/-- The tail as it is written. -/
def text : Tail → List Char
  | .nothing => []
  | .quoted letters cut => '"' :: (lettersText letters ++ if cut then ['\\'] else [])
  | .line comment _ => '/' :: '/' :: comment
  | .block comment _ => '/' :: '*' :: comment

/-- What stays of the tail. -/
def kept : Tail → List Char
  | .line _ _ | .block _ _ => []
  | t => t.text

/-- What stays of the tail, as a tail. -/
def bare : Tail → Tail
  | .line _ _ | .block _ _ => .nothing
  | t => t

/-- Whether the tail is a comment. -/
def isComment : Tail → Bool
  | .line _ _ | .block _ _ => true
  | _ => false

end Tail

/-- Parts and a tail as they are written. -/
def textOf (parts : List Part) (tail : Tail) : List Char := parts.flatMap Part.text ++ tail.text

/-- What stays of parts and a tail. -/
def keptOf (parts : List Part) (tail : Tail) : List Char := parts.flatMap Part.kept ++ tail.kept

/-- No slash that stands by itself makes a comment with what follows it. -/
def Apart : List Part → Tail → Prop
  | [], _ => True
  | p :: parts, tail =>
      (p.text = ['/'] → ∀ d ∈ (textOf parts tail).head?, d ≠ '/' ∧ d ≠ '*') ∧ Apart parts tail

/-- A text in parts. -/
structure Reading where
  parts : List Part
  tail : Tail
  apart : Apart parts tail

namespace Reading

/-- The text that is read. -/
def text (r : Reading) : List Char := textOf r.parts r.tail

/-- What stays of it. -/
def kept (r : Reading) : List Char := keptOf r.parts r.tail

/-- There is no comment. -/
def Plain (r : Reading) : Prop := (∀ p ∈ r.parts, p.isComment = false) ∧ r.tail.isComment = false

end Reading

@[simp]
theorem textOf_nil (tail : Tail) : textOf [] tail = tail.text := rfl

@[simp]
theorem textOf_cons (p : Part) (parts : List Part) (tail : Tail) :
    textOf (p :: parts) tail = p.text ++ textOf parts tail := by
  simp [textOf]

@[simp]
theorem keptOf_nil (tail : Tail) : keptOf [] tail = tail.kept := rfl

@[simp]
theorem keptOf_cons (p : Part) (parts : List Part) (tail : Tail) :
    keptOf (p :: parts) tail = p.kept ++ keptOf parts tail := by
  simp [keptOf]

/-! ## Cutting comments -/

section Parts

variable (rest : List Char)

theorem stripQuoted_letters (letters : List Letter) :
    stripQuoted (lettersText letters ++ rest) = lettersText letters ++ stripQuoted rest := by
  induction letters with
  | nil => rfl
  | cons letter letters ih =>
    have split : lettersText (letter :: letters) = letter.text ++ lettersText letters := List.flatMap_cons
    rw [split, List.append_assoc, List.append_assoc, ← ih]
    cases letter with
    | plain c unmarked =>
      exact stripQuoted.eq_4 c _ (fun same => unmarked.1 same) fun _ _ same => absurd same unmarked.2
    | escaped c => rfl

theorem stripLine_append {comment : List Char} (single : '\n' ∉ comment) :
    stripLine (comment ++ rest) = stripLine rest := by
  induction comment with
  | nil => rfl
  | cons c comment ih =>
    simp only [List.mem_cons, not_or] at single
    rw [List.cons_append, stripLine.eq_3 c _ (Ne.symm single.1), ih single.2]

theorem stripBlock_cons {c : Char} {cs : List Char} (unclosed : ¬ ['*', '/'] <+: c :: cs) :
    stripBlock (c :: cs) = stripBlock cs := by
  refine stripBlock.eq_3 c cs ?_
  rintro rest rfl rfl
  exact unclosed ⟨rest, rfl⟩

theorem stripBlock_unclosed {comment : List Char} (unclosed : ¬ ['*', '/'] <:+: comment) : stripBlock comment = [] := by
  induction comment with
  | nil => rfl
  | cons c comment ih =>
    rw [List.infix_cons_iff, not_or] at unclosed
    rw [stripBlock_cons unclosed.1, ih unclosed.2]

theorem stripBlock_append {comment : List Char} (unclosed : ¬ ['*', '/'] <:+: comment) :
    stripBlock (comment ++ '*' :: '/' :: rest) = stripComments rest := by
  induction comment with
  | nil => rfl
  | cons c comment ih =>
    rw [List.infix_cons_iff, not_or] at unclosed
    -- The star that ends the comment may stand behind another star, but the slash does not.
    have ahead : ¬ ['*', '/'] <+: c :: (comment ++ '*' :: '/' :: rest) := by
      cases comment with
      | nil => simp
      | cons d comment => simpa using unclosed.1
    rw [List.cons_append, stripBlock_cons ahead, ih unclosed.2]

theorem stripComments_other {c : Char} (unquoted : c ≠ '"')
    (plain : c = '/' → ∀ d ∈ rest.head?, d ≠ '/' ∧ d ≠ '*') :
    stripComments (c :: rest) = c :: stripComments rest := by
  refine stripComments.eq_5 c rest unquoted ?_ ?_
  · rintro cs slash rfl
    exact (plain slash '/' rfl).1 rfl
  · rintro cs slash rfl
    exact (plain slash '*' rfl).2 rfl

end Parts

theorem Tail.strip_text (tail : Tail) : stripComments tail.text = tail.kept := by
  cases tail with
  | nothing => rfl
  | quoted letters cut =>
    refine congrArg ('"' :: ·) ((stripQuoted_letters _ letters).trans ?_)
    cases cut <;> rfl
  | line comment single =>
    have skipped := stripLine_append [] single
    rw [List.append_nil] at skipped
    exact skipped
  | block comment unclosed => exact stripBlock_unclosed unclosed

theorem strip_textOf {parts : List Part} {tail : Tail} (apart : Apart parts tail) :
    stripComments (textOf parts tail) = keptOf parts tail := by
  induction parts with
  | nil => exact tail.strip_text
  | cons p parts ih =>
    rw [textOf_cons, keptOf_cons, ← ih apart.2]
    cases p with
    | quoted letters =>
      simp only [Part.text, Part.kept, List.cons_append, List.append_assoc]
      exact congrArg ('"' :: ·) (stripQuoted_letters _ letters)
    | line comment single =>
      simp only [Part.text, Part.kept, List.cons_append, List.append_assoc]
      exact stripLine_append _ single
    | block comment unclosed =>
      simp only [Part.text, Part.kept, List.cons_append, List.append_assoc]
      exact stripBlock_append _ unclosed
    | other c unquoted =>
      refine stripComments_other _ unquoted ?_
      rintro rfl
      exact apart.1 rfl

/-! ## Cutting comments again -/

theorem Part.kept_of_plain {p : Part} (plain : p.isComment = false) : p.kept = p.text := by
  cases p with
  | quoted _ | other _ _ => rfl
  | line _ _ | block _ _ => cases plain

theorem Tail.kept_of_plain {tail : Tail} (plain : tail.isComment = false) : tail.kept = tail.text := by
  cases tail with
  | nothing | quoted _ _ => rfl
  | line _ _ | block _ _ => cases plain

theorem Reading.kept_of_plain {r : Reading} (plain : r.Plain) : r.kept = r.text := by
  have parts : r.parts.flatMap Part.kept = r.parts.flatMap Part.text :=
    List.flatMap_congr fun p member => Part.kept_of_plain (plain.1 p member)
  rw [kept, keptOf, parts, Tail.kept_of_plain plain.2]
  rfl

theorem textOf_bare (parts : List Part) (tail : Tail) :
    textOf (parts.flatMap Part.bare) tail.bare = keptOf parts tail := by
  induction parts with
  | nil => cases tail <;> rfl
  | cons p parts ih =>
    rw [keptOf_cons, ← ih]
    cases p <;> simp [Part.bare, Part.kept, Part.text, textOf]

/-- What is kept begins as the text does, unless that begins with a slash. -/
theorem head?_keptOf {parts : List Part} {tail : Tail} (other : (textOf parts tail).head? ≠ some '/') :
    (keptOf parts tail).head? = (textOf parts tail).head? := by
  cases parts with
  | nil =>
    cases tail with
    | nothing | quoted _ _ => rfl
    | line _ _ | block _ _ => exact absurd rfl other
  | cons p parts =>
    rw [textOf_cons] at other ⊢
    rw [keptOf_cons]
    cases p with
    | quoted _ | other _ _ => rfl
    | line _ _ | block _ _ => exact absurd rfl other

theorem apart_bare {parts : List Part} {tail : Tail} (apart : Apart parts tail) :
    Apart (parts.flatMap Part.bare) tail.bare := by
  induction parts with
  | nil => trivial
  | cons p parts ih =>
    have follows : p.text = ['/'] → ∀ d ∈ (textOf (parts.flatMap Part.bare) tail.bare).head?, d ≠ '/' ∧ d ≠ '*' := by
      intro slash d first
      have other : (textOf parts tail).head? ≠ some '/' := fun same => (apart.1 slash '/' same).1 rfl
      rw [textOf_bare, head?_keptOf other] at first
      exact apart.1 slash d first
    rw [List.flatMap_cons]
    cases p with
    | quoted letters => exact ⟨follows, ih apart.2⟩
    | line comment single => exact ⟨fun same => absurd same (by decide), ih apart.2⟩
    | block comment unclosed => exact ih apart.2
    | other c unquoted => exact ⟨follows, ih apart.2⟩

/-- What stays of a text, as parts. -/
def Reading.bare (r : Reading) : Reading := ⟨r.parts.flatMap Part.bare, r.tail.bare, apart_bare r.apart⟩

theorem Reading.plain_bare (r : Reading) : r.bare.Plain := by
  constructor
  · intro p member
    obtain ⟨q, -, inner⟩ := List.mem_flatMap.1 member
    cases q <;> simp [Part.bare] at inner <;> subst inner <;> rfl
  · rcases r with ⟨parts, tail, apart⟩
    cases tail <;> rfl

/-! ## Reading a text in parts -/

/-- A quoted text ends, or it breaks off. -/
theorem quoted_cases (cs : List Char) :
    (∃ letters rest, cs = lettersText letters ++ '"' :: rest) ∨
      ∃ letters, ∃ cut : Bool, cs = lettersText letters ++ if cut then ['\\'] else [] := by
  match cs with
  | [] => exact .inr ⟨[], false, rfl⟩
  | c :: cs =>
    by_cases mark : c = '"'
    · exact .inl ⟨[], cs, by rw [mark]; rfl⟩
    by_cases slash : c = '\\'
    · subst slash
      match cs with
      | [] => exact .inr ⟨[], true, rfl⟩
      | d :: cs =>
        rcases quoted_cases cs with ⟨letters, rest, rfl⟩ | ⟨letters, cut, rfl⟩
        · exact .inl ⟨.escaped d :: letters, rest, rfl⟩
        · exact .inr ⟨.escaped d :: letters, cut, rfl⟩
    · rcases quoted_cases cs with ⟨letters, rest, rfl⟩ | ⟨letters, cut, rfl⟩
      · exact .inl ⟨.plain c ⟨mark, slash⟩ :: letters, rest, rfl⟩
      · exact .inr ⟨.plain c ⟨mark, slash⟩ :: letters, cut, rfl⟩

/-- A comment between stars ends, or it breaks off. -/
theorem block_cases (cs : List Char) :
    (∃ comment rest, ¬ ['*', '/'] <:+: comment ∧ cs = comment ++ '*' :: '/' :: rest) ∨ ¬ ['*', '/'] <:+: cs := by
  induction cs with
  | nil => exact .inr (by simp)
  | cons c cs ih =>
    by_cases here : ['*', '/'] <+: c :: cs
    · obtain ⟨rest, same⟩ := here
      exact .inl ⟨[], rest, by simp, same.symm⟩
    · rcases ih with ⟨comment, rest, unclosed, rfl⟩ | unclosed
      · refine .inl ⟨c :: comment, rest, ?_, rfl⟩
        rw [List.infix_cons_iff, not_or]
        refine ⟨fun ahead => here (ahead.trans ?_), unclosed⟩
        exact List.prefix_append (c :: comment) _
      · exact .inr (by rw [List.infix_cons_iff, not_or]; exact ⟨here, unclosed⟩)

/-- A text that begins with a part can be read if what follows can. -/
theorem exists_reading_of_part (p : Part) {rest : List Char}
    (plain : p.text = ['/'] → ∀ d ∈ rest.head?, d ≠ '/' ∧ d ≠ '*') (known : ∃ r : Reading, r.text = rest) :
    ∃ r : Reading, r.text = p.text ++ rest := by
  obtain ⟨⟨parts, tail, apart⟩, rfl⟩ := known
  exact ⟨⟨p :: parts, tail, plain, apart⟩, textOf_cons p parts tail⟩

/-- Every text can be read in parts. -/
theorem exists_reading (cs : List Char) : ∃ r : Reading, r.text = cs := by
  match cs with
  | [] => exact ⟨⟨[], .nothing, trivial⟩, rfl⟩
  | c :: cs =>
    by_cases mark : c = '"'
    · subst mark
      rcases quoted_cases cs with ⟨letters, rest, rfl⟩ | ⟨letters, cut, rfl⟩
      · have known := exists_reading_of_part (.quoted letters) (by simp [Part.text]) (exists_reading rest)
        simpa [Part.text] using known
      · exact ⟨⟨[], .quoted letters cut, trivial⟩, rfl⟩
    by_cases slash : c = '/'
    · subst slash
      match cs with
      | [] => exact ⟨⟨[.other '/' mark], .nothing, by simp [Apart, Tail.text]⟩, rfl⟩
      | d :: cs =>
        by_cases line : d = '/'
        · subst line
          by_cases ends : '\n' ∈ cs
          · obtain ⟨comment, rest, rfl, single⟩ := List.eq_append_cons_of_mem ends
            have known := exists_reading_of_part (.line comment single) (by simp [Part.text]) (exists_reading rest)
            simpa [Part.text] using known
          · exact ⟨⟨[], .line cs ends, trivial⟩, rfl⟩
        by_cases block : d = '*'
        · subst block
          rcases block_cases cs with ⟨comment, rest, unclosed, rfl⟩ | unclosed
          · have known := exists_reading_of_part (.block comment unclosed) (by simp [Part.text]) (exists_reading rest)
            simpa [Part.text] using known
          · exact ⟨⟨[], .block cs unclosed, trivial⟩, rfl⟩
        · exact exists_reading_of_part (.other '/' mark) (by simp [line, block]) (exists_reading (d :: cs))
    · exact exists_reading_of_part (.other c mark) (by simp [Part.text, slash]) (exists_reading cs)
termination_by cs.length

/-! ## Every text -/

/-- However a text is made of parts, cutting its comments leaves what is kept of the parts, so a text without comments
stays as it is.  Every text is made of parts, and cutting comments again changes nothing. -/
theorem stripComments_reading :
    (∀ r : Reading, stripComments r.text = r.kept ∧ (r.Plain → stripComments r.text = r.text)) ∧
      (∀ cs, ∃ r : Reading, r.text = cs) ∧ ∀ cs, stripComments (stripComments cs) = stripComments cs := by
  have keeps (r : Reading) : stripComments r.text = r.kept := strip_textOf r.apart
  refine ⟨fun r => ⟨keeps r, fun plain => ?_⟩, exists_reading, fun cs => ?_⟩
  · rw [keeps, Reading.kept_of_plain plain]
  · obtain ⟨r, rfl⟩ := exists_reading cs
    have left : r.bare.text = r.kept := textOf_bare r.parts r.tail
    calc
      stripComments (stripComments r.text) = stripComments r.bare.text := by rw [keeps, left]
      _ = r.bare.kept := keeps r.bare
      _ = r.bare.text := Reading.kept_of_plain r.plain_bare
      _ = stripComments r.text := by rw [keeps, left]

/-- Quotes guard slashes, stars that share a slash do not close a comment, and neither does a quote in it. -/
example : stripComments "/*/ \"*/\"\\\"//\"/ /**/1// \"".toList = "\"\\\"//\"/ 1".toList := by decide

end Gazetteer.ProjectFile
