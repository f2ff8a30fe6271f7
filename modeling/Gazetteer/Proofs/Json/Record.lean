import Gazetteer.Json.Decode
import Gazetteer.Proofs.Json.Value

/-!
# Records written and read back

A decoder is faithful to an encoder if whatever it makes of an encoded value is that value, and if a value it accepts
is plain: writable, canonical and without binary fractions (`Faithful`).  Texts, lists, objects and choices of names
have faithful decoders, and so has a record whose fields have them (`Form.faithful`).  Faithful decoders may refuse: a
value returns if its decoder makes it of its encoded form (`Returns`), and so does a record whose fields do
(`Form.returns`).
-/

namespace Gazetteer.Json

set_option autoImplicit false

/-! ## Plain values -/

/-- A value that comes back from its text as it was, nested less than `n` levels deep. -/
structure Plain (v : Json) (n : Nat) : Prop where
  writable : v.Writable (n + 1)
  canonical : v.Canonical
  integral : v.Integral

/-- The decoder makes nothing else of an encoded value, and takes only plain ones. -/
def Faithful {α : Type} (n : Nat) (encode : α → Json) (decode : Decoder α) : Prop :=
  ∀ a b, decode (encode a) = .ok b → b = a ∧ (encode a).Plain n

/-- The decoder makes a value of its encoded form. -/
def Returns {α : Type} (encode : α → Json) (decode : Decoder α) (a : α) : Prop := decode (encode a) = .ok a

section Scalars

variable {n : Nat}

theorem plain_string (s : String) :
    (Json.string s).Plain n := ⟨by simp [Writable], by simp [Canonical], by simp [Integral]⟩

theorem plain_null : Json.null.Plain n := ⟨by simp [Writable], by simp [Canonical], by simp [Integral]⟩

theorem plain_bool (b : Bool) :
    (Json.bool b).Plain n := ⟨by simp [Writable], by simp [Canonical], by simp [Integral]⟩

theorem plain_nat {k : Nat} (fits : k < UInt64.size) : (Json.nat k).Plain n :=
  ⟨Number.inRange_natCast fits, by simp [nat, Canonical], by simp [nat, Integral]⟩

theorem faithful_text : Faithful n .string .text := by
  intro s t read
  cases read
  exact ⟨rfl, plain_string s⟩

theorem faithful_flag : Faithful n .bool .flag := by
  intro s t read
  cases read
  exact ⟨rfl, plain_bool s⟩

theorem faithful_natural {bound : Nat} (name : String) (most : bound ≤ UInt64.size) :
    Faithful n .nat (.natural bound name) := by
  intro k l read
  simp only [nat, Decoder.natural] at read
  split at read
  · rename_i inside
    rw [Bool.and_eq_true, decide_eq_true_eq, decide_eq_true_eq] at inside
    cases read
    exact ⟨Int.toNat_natCast k, plain_nat (by omega)⟩
  · cases read

theorem faithful_word : Faithful n .nat .word := faithful_natural "u32" (by decide)

theorem faithful_count : Faithful n .nat .count := faithful_natural "usize" (by decide)

/-- A name among some, each of which names one thing. -/
theorem faithful_choice {α : Type} {name : α → String} {all : List α}
    (distinct : ∀ a, ∀ b ∈ all, name b = name a → b = a) :
    Faithful n (fun a => .string (name a)) (.choice (all.map fun a => (name a, a))) := by
  intro a b read
  refine ⟨?_, plain_string _⟩
  simp only [Decoder.choice, Decoder.choice.find] at read
  split at read
  · rename_i found
    cases read
    obtain ⟨front, back, split, _⟩ := List.lookup_eq_some_iff.1 found
    have member : (name a, b) ∈ all.map fun a => (name a, a) := by
      rw [split]
      exact List.mem_append_right front List.mem_cons_self
    obtain ⟨c, listed, same⟩ := List.mem_map.1 member
    cases Prod.mk.inj same |>.2
    exact distinct a b listed (Prod.mk.inj same).1
  · cases read

theorem returns_text (s : String) : Returns .string .text s := rfl

theorem returns_flag (b : Bool) : Returns .bool .flag b := rfl

theorem returns_natural {bound k : Nat} (name : String) (below : k < bound) : Returns .nat (.natural bound name) k := by
  have inside : (decide (0 ≤ (k : Int)) && decide ((k : Int) < bound)) = true := by
    rw [Bool.and_eq_true, decide_eq_true_eq, decide_eq_true_eq]
    omega
  rw [Returns, nat, Decoder.natural, if_pos inside, Int.toNat_natCast]

theorem returns_word {k : Nat} (below : k < UInt32.size) : Returns .nat .word k := returns_natural "u32" below

theorem returns_count {k : Nat} (below : k < UInt64.size) : Returns .nat .count k := returns_natural "usize" below

end Scalars

/-! ## Lists and objects -/

section Compound

variable {α : Type} {n : Nat} {encode : α → Json} {decode : Decoder α}

theorem integralItems_iff {items : List Json} : IntegralItems items ↔ ∀ item ∈ items, item.Integral := by
  induction items with
  | nil => simp [IntegralItems]
  | cons item items ih => simp [IntegralItems, ih]

theorem integralMembers_iff {members : List (String × Json)} :
    IntegralMembers members ↔ ∀ member ∈ members, member.2.Integral := by
  induction members with
  | nil => simp [IntegralMembers]
  | cons member members ih => simp [IntegralMembers, ih]

theorem canonicalItems_iff {items : List Json} : CanonicalItems items ↔ ∀ item ∈ items, item.Canonical := by
  induction items with
  | nil => simp [CanonicalItems]
  | cons item items ih => simp [CanonicalItems, ih]

theorem plain_array {items : List Json} (each : ∀ item ∈ items, item.Plain n) :
    (Json.array items).Plain (n + 1) := by
  refine ⟨?_, ?_, ?_⟩
  · rw [Writable, writableItems_iff]
    exact fun item member => (each item member).writable
  · rw [Canonical, canonicalItems_iff]
    exact fun item member => (each item member).canonical
  · rw [Integral, integralItems_iff]
    exact fun item member => (each item member).integral

theorem plain_object {members : List (String × Json)} (sorted : Entries.Sorted members)
    (each : ∀ member ∈ members, member.2.Plain n) : (Json.object members).Plain (n + 1) := by
  refine ⟨?_, ?_, ?_⟩
  · rw [Writable, writableMembers_iff]
    exact fun member listed => (each member listed).writable
  · rw [Canonical, canonicalMembers_iff]
    exact ⟨sorted, fun member listed => (each member listed).canonical⟩
  · rw [Integral, integralMembers_iff]
    exact fun member listed => (each member listed).integral

theorem faithful_list (each : Faithful n encode decode) :
    Faithful (n + 1) (fun xs => .array (xs.map encode)) (.list decode) := by
  intro xs ys read
  have pairs := Outcome.mapM_eq_ok.1 read
  clear read
  have both : ys = xs ∧ ∀ item ∈ xs.map encode, item.Plain n := by
    induction xs generalizing ys with
    | nil =>
      rw [List.map_nil, List.forall₂_nil_left_iff] at pairs
      exact ⟨pairs, fun _ none => absurd none List.not_mem_nil⟩
    | cons x xs ih =>
      rw [List.map_cons, List.forall₂_cons_left_iff] at pairs
      obtain ⟨y, ys, first, others, rfl⟩ := pairs
      obtain ⟨rfl, plain⟩ := each x y first
      obtain ⟨rfl, plains⟩ := ih ys others
      exact ⟨rfl, List.forall_mem_cons.2 ⟨plain, plains⟩⟩
  exact ⟨both.1, plain_array both.2⟩

theorem faithful_mapping (each : Faithful n encode decode) :
    Faithful (n + 1) (fun m : SortedMap String α => .object (m.map fun _ a => encode a).entries) (.mapping decode) := by
  intro m m' read
  obtain ⟨pairs, list, same⟩ := Outcome.bind_eq_ok.1 read
  cases same
  have split := Outcome.mapM_eq_ok.1 list
  have both : pairs = m.entries ∧ ∀ member ∈ m.entries.map fun e => (e.1, encode e.2), member.2.Plain n := by
    change List.Forall₂ _ (m.entries.map fun e => (e.1, encode e.2)) pairs at split
    clear list read
    generalize m.entries = entries at split ⊢
    induction entries generalizing pairs with
    | nil =>
      rw [List.map_nil, List.forall₂_nil_left_iff] at split
      exact ⟨split, fun _ none => absurd none List.not_mem_nil⟩
    | cons e entries ih =>
      rw [List.map_cons, List.forall₂_cons_left_iff] at split
      obtain ⟨pair, pairs, first, others, rfl⟩ := split
      obtain ⟨a, value, same⟩ := Outcome.bind_eq_ok.1 first
      cases same
      obtain ⟨rfl, plain⟩ := each e.2 a value
      obtain ⟨rfl, plains⟩ := ih pairs others
      exact ⟨rfl, List.forall_mem_cons.2 ⟨plain, plains⟩⟩
  refine ⟨?_, plain_object (m.map fun _ a => encode a).sorted both.2⟩
  rw [both.1]
  exact SortedMap.ofList_entries m

theorem returns_list {xs : List α} (each : ∀ x ∈ xs, Returns encode decode x) :
    Returns (fun xs => .array (xs.map encode)) (.list decode) xs := by
  refine Outcome.mapM_eq_ok.2 (List.forall₂_map_left_iff.2 ?_)
  exact List.forall₂_same.2 each

theorem returns_mapping {m : SortedMap String α} (each : ∀ e ∈ m.entries, Returns encode decode e.2) :
    Returns (fun m : SortedMap String α => .object (m.map fun _ a => encode a).entries) (.mapping decode) m := by
  refine Outcome.bind_eq_ok.2 ⟨m.entries, Outcome.mapM_eq_ok.2 ?_, congrArg Except.ok (SortedMap.ofList_entries m)⟩
  refine List.forall₂_map_left_iff.2 (List.forall₂_same.2 fun e listed => ?_)
  exact Outcome.bind_eq_ok.2 ⟨e.2, each e listed, rfl⟩

end Compound

/-! ## Fields -/

section Fields

namespace Fields

variable {τ : Type}

/-- The names of the fields. -/
def names : {τ : Type} → Fields Decoder τ → List String
  | _, .done => []
  | _, .field name _ _ rest => name :: rest.names

/-- The slots of the fields hold what is found under their names. -/
def Filled (found : String → Option Json) : {τ : Type} → (fields : Fields Decoder τ) → fields.Slots → Prop
  | _, .done, _ => True
  | _, .field name read _ rest, slots =>
      (match found name with
        | none => slots.1 = none
        | some v => ∃ a, read v = .ok a ∧ slots.1 = some a) ∧ rest.Filled found slots.2

/-- The values of the fields are what is found under their names, or what they are worth when nothing is. -/
def Holds (found : String → Option Json) : {τ : Type} → Fields Decoder τ → τ → Prop
  | _, .done, _ => True
  | _, .field name read absent rest, values =>
      (match found name with
        | none => absent ≠ .required ∧ ∀ a, absent = .optional a ∨ absent = .default a → values.1 = a
        | some v => read v = .ok values.1) ∧ rest.Holds found values.2

theorem filled_noSlots (fields : Fields Decoder τ) : fields.Filled (fun _ => none) fields.noSlots := by
  induction fields with
  | done => trivial
  | field name read absent rest ih => exact ⟨rfl, ih⟩

theorem filled_congr {found found' : String → Option Json} {fields : Fields Decoder τ} {slots : fields.Slots}
    (same : ∀ name ∈ fields.names, found name = found' name) (filled : fields.Filled found slots) :
    fields.Filled found' slots := by
  induction fields with
  | done => trivial
  | field name read absent rest ih =>
    rw [Filled, ← same name List.mem_cons_self]
    exact ⟨filled.1, ih (fun other member => same other (List.mem_cons_of_mem name member)) filled.2⟩

/-- One member read into the slot of its field. -/
def entered (fields : Fields Decoder τ) (slots : fields.Slots) (member : String × Json) :
    Except Mismatch fields.Slots :=
  fields.enter (m := Except Mismatch) (fun read => read member.2) .duplicate (pure ·) member.1 slots

section Entered

variable {α : Type} {name key : String} {read : Decoder α} {absent : Absent α} {rest : Fields Decoder τ}
  {value : Json}
  {slots : (field name read absent rest).Slots}

theorem entered_here : (field name read absent rest).entered slots (name, value) =
    match slots.1 with
    | some _ => .error (.duplicate name)
    | none => read value >>= fun a => pure (some a, slots.2) := if_pos rfl

theorem entered_elsewhere (other : key ≠ name) : (field name read absent rest).entered slots (key, value) =
    (rest.entered slots.2 (key, value) >>= fun others => pure (slots.1, others)) := if_neg other

end Entered

/-- One member more. -/
theorem filled_entered {found : String → Option Json} {fields : Fields Decoder τ} {key : String} {value : Json}
    {slots slots' : fields.Slots} (distinct : fields.names.Nodup) (filled : fields.Filled found slots)
    (step : fields.entered slots (key, value) = .ok slots') :
    fields.Filled (fun name => if name = key then some value else found name) slots' := by
  induction fields with
  | done => trivial
  | field name read absent rest ih =>
    obtain ⟨new, others⟩ := List.nodup_cons.1 distinct
    by_cases here : key = name
    · subst here
      have apart : ∀ other ∈ rest.names, found other = if other = key then some value else found other := by
        intro other member
        rw [if_neg]
        intro same
        exact new (same ▸ member)
      rw [entered_here] at step
      split at step
      · cases step
      · obtain ⟨a, readable, same⟩ := Outcome.bind_eq_ok.1 step
        cases same
        refine ⟨?_, filled_congr apart filled.2⟩
        beta_reduce
        rw [if_pos rfl]
        exact ⟨a, readable, rfl⟩
    · rw [entered_elsewhere here] at step
      obtain ⟨slots'', next, same⟩ := Outcome.bind_eq_ok.1 step
      cases same
      refine ⟨?_, ih others filled.2 next⟩
      beta_reduce
      rw [if_neg (Ne.symm here)]
      exact filled.1

theorem filled_foldlM {found : String → Option Json} {fields : Fields Decoder τ} {members : List (String × Json)}
    {slots slots' : fields.Slots} (distinct : fields.names.Nodup) (filled : fields.Filled found slots)
    (keys : (members.map (·.1)).Nodup) (all : members.foldlM fields.entered slots = .ok slots') :
    fields.Filled (fun name => (members.lookup name).or (found name)) slots' := by
  induction members generalizing found slots with
  | nil =>
    cases all
    exact filled
  | cons member members ih =>
    obtain ⟨key, value⟩ := member
    obtain ⟨new, others⟩ := List.nodup_cons.1 keys
    rw [List.foldlM_cons] at all
    obtain ⟨middle, first, all⟩ := Outcome.bind_eq_ok.1 all
    refine filled_congr ?_ (ih (filled_entered distinct filled first) others all)
    intro name _
    rw [List.lookup_cons]
    by_cases here : name = key
    · subst here
      have none : members.lookup name = none := by
        rw [List.lookup_eq_none_iff]
        intro entry listed
        rw [bne_iff_ne]
        intro same
        exact new (List.mem_map.2 ⟨entry, listed, same.symm⟩)
      rw [none, if_pos rfl, beq_self_eq_true]
      rfl
    · rw [if_neg here, beq_eq_false_iff_ne.2 here]

theorem holds_finish {found : String → Option Json} {fields : Fields Decoder τ} {slots : fields.Slots} {values : τ}
    (filled : fields.Filled found slots) (finished : fields.finish Mismatch.missing slots = .ok values) :
    fields.Holds found values := by
  induction fields with
  | done => trivial
  | field name read absent rest ih =>
    obtain ⟨slot, slots⟩ := slots
    obtain ⟨here, others⟩ := filled
    dsimp only at here
    have value {a : _} (same : Except.ok a >>= (fun a =>
        rest.finish Mismatch.missing slots >>= fun b => pure (a, b)) = .ok values) :
        values.1 = a ∧ rest.Holds found values.2 := by
      rw [Outcome.ok_bind] at same
      obtain ⟨b, last, same⟩ := Outcome.bind_eq_ok.1 same
      cases same
      exact ⟨rfl, ih others last⟩
    cases slot with
    | some a =>
      obtain ⟨same, holds⟩ := value finished
      refine ⟨?_, holds⟩
      split at here
      · cases here
      · rename_i v which
        obtain ⟨b, readable, slot⟩ := here
        cases slot
        rw [same]
        exact readable
    | none =>
      have nothing : found name = none := by
        split at here
        · assumption
        · obtain ⟨_, _, slot⟩ := here
          cases slot
      rw [Holds, nothing]
      cases absent with
      | required => cases finished
      | optional a =>
        obtain ⟨same, holds⟩ := value finished
        refine ⟨⟨nofun, ?_⟩, holds⟩
        rintro b (worth | worth) <;> cases worth
        exact same
      | default a =>
        obtain ⟨same, holds⟩ := value finished
        refine ⟨⟨nofun, ?_⟩, holds⟩
        rintro b (worth | worth) <;> cases worth
        exact same

/-- What the members of an object say, whatever their order. -/
theorem lookup_record {members : List (String × Json)} (keys : (members.map (·.1)).Nodup) (name : String) :
    List.lookup name (SortedMap.ofList members).entries = List.lookup name members := by
  apply Option.ext
  intro v
  rw [SortedMap.lookup_eq_some_iff (Entries.nodup_keys (SortedMap.ofList members).sorted), SortedMap.mem_entries_iff,
    SortedMap.get?_ofList_eq_some_iff keys, SortedMap.lookup_eq_some_iff keys]

theorem record_eq (members : List (String × Json)) :
    Json.record members = .object (SortedMap.ofList members).entries :=
  congrArg Json.object (SortedMap.entries_foldl_insert members ∅).symm

/-- The fields of an object with distinct keys. -/
theorem holds_of_record {title : String} {fields : Fields Decoder τ} {members : List (String × Json)} {values : τ}
    (distinct : fields.names.Nodup) (keys : (members.map (·.1)).Nodup)
    (read : fields.record title (.record members) = .ok values) :
    fields.Holds (fun name => List.lookup name members) values := by
  rw [record_eq] at read
  obtain ⟨slots, all, finished⟩ := Outcome.bind_eq_ok.1 read
  have nodup := Entries.nodup_keys (SortedMap.ofList members).sorted
  have filled := filled_foldlM distinct (filled_noSlots fields) nodup all
  refine holds_finish (filled_congr ?_ filled) finished
  intro name _
  rw [Option.or_none, lookup_record keys]

/-- The field under a key, if there is one, can be read from the value. -/
def Accepts (key : String) (value : Json) : {τ : Type} → Fields Decoder τ → Prop
  | _, .done => True
  | _, .field name read _ rest => (key = name → ∃ a, read value = .ok a) ∧ rest.Accepts key value

theorem accepts_of_holds {found : String → Option Json} {fields : Fields Decoder τ} {values : τ} {key : String}
    {value : Json}
    (holds : fields.Holds found values) (here : found key = some value) : fields.Accepts key value := by
  induction fields with
  | done => trivial
  | field name read absent rest ih =>
    refine ⟨?_, ih holds.2⟩
    intro same
    have first := holds.1
    rw [← same, here] at first
    exact ⟨values.1, first⟩

theorem entered_isOk {found : String → Option Json} {fields : Fields Decoder τ} {slots : fields.Slots}
    {key : String} {value : Json}
    (filled : fields.Filled found slots) (fresh : found key = none) (accepts : fields.Accepts key value) :
    ∃ slots', fields.entered slots (key, value) = .ok slots' := by
  induction fields with
  | done => exact ⟨slots, rfl⟩
  | field name read absent rest ih =>
    by_cases here : key = name
    · subst here
      obtain ⟨a, readable⟩ := accepts.1 rfl
      have blank := filled.1
      rw [fresh] at blank
      refine ⟨(some a, slots.2), ?_⟩
      rw [entered_here, blank, readable]
      exact Outcome.ok_bind a _
    · obtain ⟨others, step⟩ := ih filled.2 accepts.2
      refine ⟨(slots.1, others), ?_⟩
      rw [entered_elsewhere here, step]
      exact Outcome.ok_bind others _

theorem foldlM_isOk {found : String → Option Json} {fields : Fields Decoder τ} {slots : fields.Slots}
    {members : List (String × Json)} (distinct : fields.names.Nodup) (filled : fields.Filled found slots)
    (keys : (members.map (·.1)).Nodup) (fresh : ∀ key ∈ members.map (·.1), found key = none)
    (accepts : ∀ member ∈ members, fields.Accepts member.1 member.2) :
    ∃ slots', members.foldlM fields.entered slots = .ok slots' := by
  induction members generalizing found slots with
  | nil => exact ⟨slots, rfl⟩
  | cons member members ih =>
    obtain ⟨key, value⟩ := member
    obtain ⟨new, apart⟩ := List.nodup_cons.1 keys
    obtain ⟨middle, first⟩ := entered_isOk filled (fresh key List.mem_cons_self) (accepts _ List.mem_cons_self)
    have later : ∀ other ∈ members.map (·.1), (if other = key then some value else found other) = none := by
      intro other listed
      rw [if_neg]
      · exact fresh other (List.mem_cons_of_mem key listed)
      · intro same
        rw [same] at listed
        exact new listed
    obtain ⟨slots', others⟩ := ih (filled_entered distinct filled first) apart later
      fun other listed => accepts other (List.mem_cons_of_mem _ listed)
    refine ⟨slots', ?_⟩
    rw [List.foldlM_cons, first, Outcome.ok_bind]
    exact others

theorem finish_of_holds {found : String → Option Json} {fields : Fields Decoder τ} {slots : fields.Slots}
    {values : τ} (filled : fields.Filled found slots) (holds : fields.Holds found values) :
    fields.finish Mismatch.missing slots = .ok values := by
  induction fields with
  | done => rfl
  | field name read absent rest ih =>
    obtain ⟨slot, slots⟩ := slots
    obtain ⟨a, values⟩ := values
    obtain ⟨here, others⟩ := filled
    have first := holds.1
    have last : (Except.ok a >>= fun a => rest.finish Mismatch.missing slots >>= fun b => pure (a, b)) =
        .ok (a, values) := by
      rw [Outcome.ok_bind, ih others holds.2, Outcome.ok_bind]
      rfl
    dsimp only at here first
    cases which : found name with
    | some v =>
      rw [which] at here first
      obtain ⟨b, readable, same⟩ := here
      rw [first] at readable
      cases readable
      subst same
      exact last
    | none =>
      rw [which] at here first
      subst here
      cases absent with
      | required => exact absurd rfl first.1
      | optional b =>
        rw [first.2 b (.inl rfl)] at last ⊢
        exact last
      | default b =>
        rw [first.2 b (.inr rfl)] at last ⊢
        exact last

/-- An object whose members say what the fields hold is read as these fields. -/
theorem record_of_holds {title : String} {fields : Fields Decoder τ} {members : List (String × Json)} {values : τ}
    (distinct : fields.names.Nodup) (keys : (members.map (·.1)).Nodup)
    (holds : fields.Holds (fun name => List.lookup name members) values) :
    fields.record title (.record members) = .ok values := by
  have nodup := Entries.nodup_keys (SortedMap.ofList members).sorted
  have accepts : ∀ member ∈ (SortedMap.ofList members).entries, fields.Accepts member.1 member.2 := by
    intro member listed
    apply accepts_of_holds holds
    rw [← lookup_record keys]
    exact (SortedMap.lookup_eq_some_iff nodup).2 listed
  obtain ⟨slots, all⟩ := foldlM_isOk distinct (filled_noSlots fields) nodup (fun _ _ => rfl) accepts
  have filled := filled_foldlM distinct (filled_noSlots fields) nodup all
  have finished :=
    finish_of_holds (filled_congr (fun name _ => by rw [Option.or_none, lookup_record keys]) filled) holds
  rw [record_eq]
  exact Outcome.bind_eq_ok.2 ⟨slots, all, finished⟩

/-- The members are those of the fields in their order, each related to the value of its field; a field may be left out
whose value is what it is worth then. -/
inductive Shows (R : (α : Type) → Decoder α → α → Json → Prop) :
    {τ : Type} → Fields Decoder τ → τ → List (String × Json) → Prop
  | done : Shows R .done () []
  | field {α τ : Type} {name : String} {read : Decoder α} {absent : Absent α} {rest : Fields Decoder τ} {a : α}
      {values : τ} {v : Json} {members : List (String × Json)} (value : R α read a v)
      (others : Shows R rest values members) :
      Shows R (.field name read absent rest) (a, values) ((name, v) :: members)
  | absent {α τ : Type} {name : String} {read : Decoder α} {a : α} {rest : Fields Decoder τ} {values : τ}
      {members : List (String × Json)} (others : Shows R rest values members) :
      Shows R (.field name read (.default a) rest) (a, values) members

/-- The members hold plain forms of the values of the fields, and of nothing else. -/
abbrev Renders (n : Nat) : Fields Decoder τ → τ → List (String × Json) → Prop :=
  Shows fun _ read a v => ∀ b, read v = .ok b → b = a ∧ v.Plain n

/-- The members hold what the values of the fields are read from. -/
abbrev Returns : Fields Decoder τ → τ → List (String × Json) → Prop := Shows fun _ read a v => read v = .ok a

section Shows

variable {R : (α : Type) → Decoder α → α → Json → Prop} {members : List (String × Json)} {fields : Fields Decoder τ}
  {values : τ}

theorem Shows.sublist (shows : fields.Shows R values members) : (members.map (·.1)).Sublist fields.names := by
  induction shows with
  | done => exact .refl _
  | field _ _ ih => exact .cons_cons _ ih
  | absent _ ih => exact .cons _ ih

end Shows

variable {n : Nat} {members : List (String × Json)} {fields : Fields Decoder τ} {values : τ}

/-- A member whose field is left out is under no name. -/
theorem lookup_of_missing {name : String} (missing : name ∉ members.map (·.1)) : List.lookup name members = none := by
  rw [List.lookup_eq_none_iff]
  intro member listed
  rw [bne_iff_ne]
  intro same
  exact missing (List.mem_map.2 ⟨member, listed, same.symm⟩)

theorem not_mem_keys_of_mem_names {name : String} {others : List String} (distinct : (name :: others).Nodup)
    {other : String} (listed : other ∈ others) (missing : other ∉ members.map (·.1)) {v : Json} :
    other ∉ ((name, v) :: members).map (·.1) := by
  rw [List.map_cons, List.mem_cons, not_or]
  refine ⟨?_, missing⟩
  rintro rfl
  exact (List.nodup_cons.1 distinct).1 listed

theorem Shows.eq_of_holds {found : String → Option Json} {values' : τ} (renders : fields.Renders n values members)
    (distinct : fields.names.Nodup) (here : ∀ member ∈ members, found member.1 = some member.2)
    (nowhere : ∀ name ∈ fields.names, name ∉ members.map (·.1) → found name = none)
    (holds : fields.Holds found values') :
    values' = values ∧ ∀ member ∈ members, member.2.Plain n := by
  induction renders with
  | done => exact ⟨rfl, fun _ none => absurd none List.not_mem_nil⟩
  | field value others ih =>
    rename_i name _ _ tail _ _ v members
    obtain ⟨new, apart⟩ := List.nodup_cons.1 distinct
    have first := holds.1
    rw [here (name, v) List.mem_cons_self] at first
    obtain ⟨same, plain⟩ := value _ first
    have rest : ∀ other ∈ tail.names, other ∉ members.map (·.1) → found other = none := fun other listed missing =>
      nowhere other (List.mem_cons_of_mem name listed) (not_mem_keys_of_mem_names distinct listed missing)
    obtain ⟨sames, plains⟩ := ih apart (fun member listed => here member (List.mem_cons_of_mem _ listed)) rest holds.2
    exact ⟨Prod.ext same sames, List.forall_mem_cons.2 ⟨plain, plains⟩⟩
  | absent others ih =>
    obtain ⟨new, apart⟩ := List.nodup_cons.1 distinct
    have first := holds.1
    rw [nowhere _ List.mem_cons_self fun listed => new (others.sublist.subset listed)] at first
    obtain ⟨sames, plains⟩ := ih apart here (fun other listed => nowhere other (List.mem_cons_of_mem _ listed)) holds.2
    exact ⟨Prod.ext (first.2 _ (.inr rfl)) sames, plains⟩

/-- The values of the fields are what the members hold. -/
theorem Shows.holds {found : String → Option Json} (returns : fields.Returns values members)
    (distinct : fields.names.Nodup) (here : ∀ member ∈ members, found member.1 = some member.2)
    (nowhere : ∀ name ∈ fields.names, name ∉ members.map (·.1) → found name = none) : fields.Holds found values := by
  induction returns with
  | done => trivial
  | field value others ih =>
    rename_i name _ _ tail _ _ v members
    refine ⟨?_, ih (List.nodup_cons.1 distinct).2 (fun member listed => here member (List.mem_cons_of_mem _ listed))
      fun other listed missing =>
        nowhere other (List.mem_cons_of_mem name listed) (not_mem_keys_of_mem_names distinct listed missing)⟩
    rw [here (name, v) List.mem_cons_self]
    exact value
  | absent others ih =>
    obtain ⟨new, apart⟩ := List.nodup_cons.1 distinct
    refine ⟨?_, ih apart here fun other listed => nowhere other (List.mem_cons_of_mem _ listed)⟩
    rw [nowhere _ List.mem_cons_self fun listed => new (others.sublist.subset listed)]
    refine ⟨nofun, ?_⟩
    rintro b (worth | worth) <;> cases worth
    rfl

end Fields

/-- How a record is made of the values of its fields, and which members it has. -/
structure Form {α τ : Type} (encode : α → Json) (decode : Decoder α) (fields : Fields Decoder τ) where
  title : String
  split : α → τ
  make : τ → α
  members : α → List (String × Json)
  encoded : ∀ a, encode a = .record (members a)
  decoded : ∀ v, decode v = (fields.record title v >>= fun t => pure (make t))
  whole : ∀ a, make (split a) = a
  distinct : fields.names.Nodup

section Form

variable {α τ : Type} {n : Nat} {encode : α → Json} {decode : Decoder α} {fields : Fields Decoder τ}

/-- A record whose fields render its members. -/
theorem Form.faithful (form : Form encode decode fields)
    (renders : ∀ a, fields.Renders n (form.split a) (form.members a)) : Faithful (n + 1) encode decode := by
  intro a b read
  have keys := form.distinct.sublist (renders a).sublist
  rw [form.encoded] at read ⊢
  rw [form.decoded] at read
  obtain ⟨values, record, same⟩ := Outcome.bind_eq_ok.1 read
  cases same
  have here : ∀ member ∈ form.members a, List.lookup member.1 (form.members a) = some member.2 := fun member listed =>
    (SortedMap.lookup_eq_some_iff keys).2 listed
  obtain ⟨same, plain⟩ := (renders a).eq_of_holds form.distinct here (fun _ _ => Fields.lookup_of_missing)
    (Fields.holds_of_record form.distinct keys record)
  refine ⟨by rw [same, form.whole], ?_⟩
  rw [Fields.record_eq]
  apply plain_object (SortedMap.ofList (form.members a)).sorted
  rintro member listed
  rw [SortedMap.mem_entries_iff, SortedMap.get?_ofList_eq_some_iff keys] at listed
  exact plain member listed

/-- A record whose fields are read from its members. -/
theorem Form.returns (form : Form encode decode fields) {a : α}
    (returns : fields.Returns (form.split a) (form.members a)) : Returns encode decode a := by
  have keys := form.distinct.sublist returns.sublist
  have here : ∀ member ∈ form.members a, List.lookup member.1 (form.members a) = some member.2 := fun member listed =>
    (SortedMap.lookup_eq_some_iff keys).2 listed
  have holds := returns.holds form.distinct here fun _ _ => Fields.lookup_of_missing
  rw [Returns, form.encoded, form.decoded, Fields.record_of_holds form.distinct keys holds, Outcome.ok_bind, form.whole]
  rfl

end Form

end Fields

end Gazetteer.Json
