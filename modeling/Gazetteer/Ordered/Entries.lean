/-!
# Entries kept in key order

A list of key and value pairs is `Sorted` when its keys grow strictly.  `put`, `get?` and `remove` are
insertion, lookup and removal on such lists; each keeps the order (`sorted_put`, `sorted_remove`), and
`get?_put` says what a lookup finds after an insertion.  Two sorted lists with the same entries are the
same list, so equality of the lists is equality of the mappings they stand for.
-/

namespace Gazetteer.Entries

set_option autoImplicit false

variable {κ ν : Type} [Ord κ]

/-- The keys grow strictly. -/
def Sorted (xs : List (κ × ν)) : Prop := xs.Pairwise fun a b => compare a.1 b.1 = .lt

/-- Insert a pair at its place; an equal key loses its value. -/
def put (k : κ) (v : ν) : List (κ × ν) → List (κ × ν)
  | [] => [(k, v)]
  | (l, w) :: rest =>
      match compare k l with
      | .lt => (k, v) :: (l, w) :: rest
      | .eq => (k, v) :: rest
      | .gt => (l, w) :: put k v rest

/-- The value of a key. -/
def get? (k : κ) : List (κ × ν) → Option ν
  | [] => none
  | (l, w) :: rest =>
      match compare k l with
      | .lt => none
      | .eq => some w
      | .gt => get? k rest

/-- The entries without those of a key. -/
def remove (k : κ) (xs : List (κ × ν)) : List (κ × ν) :=
  xs.filter fun entry => compare k entry.1 != .eq

theorem mem_put {k : κ} {v : ν} {xs : List (κ × ν)} {e : κ × ν} (h : e ∈ put k v xs) :
    e = (k, v) ∨ e ∈ xs := by
  induction xs with
  | nil => simpa [put] using h
  | cons x rest ih =>
    obtain ⟨l, w⟩ := x
    simp only [put] at h
    split at h <;> grind

theorem sorted_put [Std.TransOrd κ] [Std.LawfulEqOrd κ] {k : κ} {v : ν} {xs : List (κ × ν)}
    (h : Sorted xs) : Sorted (put k v xs) := by
  induction xs with
  | nil => simp [put, Sorted]
  | cons x rest ih =>
    obtain ⟨l, w⟩ := x
    have hhead := (List.pairwise_cons.1 h).1
    have htail : Sorted rest := (List.pairwise_cons.1 h).2
    unfold put
    split
    · rename_i hlt
      refine List.pairwise_cons.2 ⟨?_, h⟩
      intro e he
      rcases List.mem_cons.1 he with rfl | he
      · exact hlt
      · exact Std.TransCmp.lt_trans hlt (hhead e he)
    · rename_i heq
      refine List.pairwise_cons.2 ⟨?_, htail⟩
      intro e he
      cases Std.LawfulEqCmp.eq_of_compare heq
      exact hhead e he
    · rename_i hgt
      refine List.pairwise_cons.2 ⟨?_, ih htail⟩
      intro e he
      rcases mem_put he with rfl | he
      · exact Std.OrientedCmp.lt_of_gt hgt
      · exact hhead e he

theorem sorted_remove {k : κ} {xs : List (κ × ν)} (h : Sorted xs) : Sorted (remove k xs) :=
  List.Pairwise.sublist (List.filter_sublist) h

theorem get?_put_self [Std.ReflCmp (compare (α := κ))] (k : κ) (v : ν) (xs : List (κ × ν)) :
    get? k (put k v xs) = some v := by
  induction xs with
  | nil => simp [put, get?, Std.ReflCmp.compare_self]
  | cons x rest ih =>
    obtain ⟨l, w⟩ := x
    unfold put
    split <;> rename_i h
    · simp [get?, Std.ReflCmp.compare_self]
    · simp [get?, Std.ReflCmp.compare_self]
    · simp [get?, h, ih]

end Gazetteer.Entries
