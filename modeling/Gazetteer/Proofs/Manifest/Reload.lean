import Gazetteer.Manifest.Merge
import Gazetteer.Manifest.Store
import Gazetteer.Proofs.Json.Record
import Gazetteer.Proofs.Registry.Encoding
import Gazetteer.Proofs.Text.Utf8
import Gazetteer.Proofs.Time.Timestamp

/-!
# Documents written and loaded again

A document that is sound, as those are that a run merges, is loaded from its bytes again: with its metadata and its
automatic region as they were, and its manual region but for the last bits of its binary fractions
(`priorOf_encode_text`).  What is loaded can be merged into a sound document again (`Document.Kept`, `sound_merge`).
-/

namespace Gazetteer

set_option autoImplicit false

open Json

/-! ## Metadata -/

namespace Metadata

theorem longWord_nat (w : UInt64) : Decoder.longWord (.nat w.toNat) = .ok w := by
  have below : (w.toNat : Int) < (UInt64.size : Nat) := Int.ofNat_lt.2 w.toNat_lt
  have inside : (decide ((0 : Int) ≤ w.toNat) && decide ((w.toNat : Int) < (UInt64.size : Nat))) = true := by
    rw [Bool.and_eq_true, decide_eq_true_eq, decide_eq_true_eq]
    exact ⟨Int.natCast_nonneg _, below⟩
  show (Decoder.natural UInt64.size "u64" (.number (.integer w.toNat))).map UInt64.ofNat = _
  rw [Decoder.natural, inside, if_pos rfl, Int.toNat_natCast]
  exact congrArg Except.ok (UInt64.ofNat_toNat)

/-- Metadata comes back from its JSON form, in which the members are sorted when it is read. -/
theorem decode_reread_encode {m : Metadata} (range : m.lastUpdated.inRange = true) :
    decode m.encode.reread = .ok m := by
  have integer (w : UInt64) : (Json.nat w.toNat).reread = .nat w.toNat := by
    rw [nat, reread, reread_integer (Number.inRange_natCast w.toNat_lt)]
  have form : m.encode.reread = .record [("lastUpdated", .string m.lastUpdated.text), ("version", .nat m.version.toNat),
      ("changesSinceLastUpdate", .nat m.changes.toNat), ("autoGenerated", .bool m.autoGenerated)] := by
    rw [encode, reread, rereadMembers, rereadMembers, rereadMembers, rereadMembers, rereadMembers, integer, integer]
    rfl
  have instant : Metadata.instant (.string m.lastUpdated.text) = .ok m.lastUpdated := by
    rw [Metadata.instant, Time.Instant.parse_text range]
  have holds : fields.Holds (fun name => List.lookup name [("lastUpdated", .string m.lastUpdated.text),
      ("version", .nat m.version.toNat), ("changesSinceLastUpdate", .nat m.changes.toNat),
      ("autoGenerated", .bool m.autoGenerated)]) (m.lastUpdated, m.version, m.changes, m.autoGenerated, ()) :=
    ⟨instant, longWord_nat m.version, longWord_nat m.changes, rfl, trivial⟩
  rw [form, decode, Fields.record_of_holds (by decide) (by simp) holds, Outcome.ok_bind]
  rfl

end Metadata

/-! ## Regions -/

@[ext]
theorem AutoRegion.ext {r r' : AutoRegion} (same : r.members = r'.members) : r = r' := by
  cases r
  cases r'
  cases same
  rfl

@[ext]
theorem ManualRegion.ext {r r' : ManualRegion} (same : r.members = r'.members) : r = r' := by
  cases r
  cases r'
  cases same
  rfl

/-- The manual region as it is read back. -/
def ManualRegion.reread (r : ManualRegion) : ManualRegion where
  members := r.members.map fun _ value => value.reread
  manual := by
    intro e member
    obtain ⟨e', listed, rfl⟩ := List.mem_map.1 member
    exact r.manual e' listed

/-- The manual region can be written and is canonical. -/
def ManualRegion.Kept (r : ManualRegion) : Prop :=
  ∀ e ∈ r.members.entries, e.2.Writable 127 ∧ e.2.Canonical

/-- All numbers in the manual region are integers. -/
def ManualRegion.Integral (r : ManualRegion) : Prop := ∀ e ∈ r.members.entries, e.2.Integral

theorem ManualRegion.reread_of_kept {r : ManualRegion} (kept : r.Kept) (integral : r.Integral) : r.reread = r := by
  have same : ∀ e ∈ r.members.entries, (e.1, e.2.reread) = e := by
    intro e member
    obtain ⟨writable, canonical⟩ := kept e member
    rw [Json.reread_of_integral e.2 writable canonical (integral e member)]
  apply ManualRegion.ext
  apply SortedMap.ext
  exact (List.map_congr_left same).trans (List.map_id' _)

/-- A document that comes back from its bytes. -/
structure Document.Sound (d : Document) : Prop where
  range : d.metadata.lastUpdated.inRange = true
  auto : d.auto.toJson.Plain 127
  manual : d.manual.Kept

/-- The document as it is loaded again. -/
def Document.reloaded (d : Document) : Document :=
  { metadata := d.metadata, auto := d.auto, manual := d.manual.reread, ignored := [] }

namespace Document

variable {d : Document}

/-- The members of a document as they are read back. -/
def rereadEntries (d : Document) : List (String × Json) :=
  (Namespace.metadataKey, d.metadata.encode.reread) :: (d.auto.members.entries ++ d.manual.reread.members.entries)

theorem Sound.writable_auto (sound : d.Sound) : ∀ e ∈ d.auto.members.entries, e.2.Writable 127 :=
  writableMembers_iff.1 sound.auto.writable

theorem Sound.reread_auto (sound : d.Sound) : ∀ e ∈ d.auto.members.entries, e.2.reread = e.2 := by
  have canonical := sound.auto.canonical
  have integral := sound.auto.integral
  rw [AutoRegion.toJson, Canonical, canonicalMembers_iff] at canonical
  rw [AutoRegion.toJson, Integral, integralMembers_iff] at integral
  intro e member
  exact reread_of_integral e.2 (sound.writable_auto e member) (canonical.2 e member) (integral e member)

theorem reread_toJson (sound : d.Sound) : d.toJson.reread = .object (SortedMap.ofList d.rereadEntries).entries := by
  have auto : d.auto.members.entries.map (fun e => (e.1, e.2.reread)) = d.auto.members.entries := by
    rw [List.map_congr_left fun e member => by rw [sound.reread_auto e member], List.map_id']
  have entries : rereadMembers ((Namespace.metadataKey, d.metadata.encode) ::
      (d.auto.members.entries ++ d.manual.members.entries)) = d.rereadEntries := by
    rw [rereadMembers, rereadMembers_eq_map, List.map_append, auto]
    rfl
  rw [toJson, reread, entries]
  exact Fields.record_eq d.rereadEntries

theorem writable_toJson (sound : d.Sound) : d.toJson.Writable depthLimit := by
  show WritableMembers _ 127
  rw [WritableMembers, writableMembers_iff]
  refine ⟨?_, ?_⟩
  · have word (w : UInt64) : Number.inRange w.toNat = true := Number.inRange_natCast w.toNat_lt
    show WritableMembers _ 126
    simp [WritableMembers, Writable, Number.Writable, nat, word]
  · intro e member
    obtain auto | manual := List.mem_append.1 member
    · exact sound.writable_auto e auto
    · exact (sound.manual e manual).1

/-! ## Namespaces -/

theorem key_auto (d : Document) {e : String × Json} (member : e ∈ d.auto.members.entries) :
    Namespace.isReserved e.1 = false ∧ Namespace.isManual e.1 = false ∧ e.1 ≠ Namespace.metadataKey := by
  have plain := d.auto.plain e member
  refine ⟨plain, ?_, ?_⟩
  · cases manual : Namespace.isManual e.1 with
    | false => rfl
    | true =>
      rw [Namespace.isReserved_of_isManual manual] at plain
      cases plain
  · intro same
    rw [same] at plain
    exact absurd plain (by decide)

theorem key_manual (d : Document) {e : String × Json} (member : e ∈ d.manual.reread.members.entries) :
    Namespace.isReserved e.1 = true ∧ Namespace.isManual e.1 = true ∧ e.1 ≠ Namespace.metadataKey := by
  have manual := d.manual.reread.manual e member
  refine ⟨Namespace.isReserved_of_isManual manual, manual, ?_⟩
  intro same
  rw [same] at manual
  exact absurd manual (by decide)

theorem nodup_rereadEntries (d : Document) : (d.rereadEntries.map (·.1)).Nodup := by
  rw [rereadEntries, List.map_cons, List.map_append, List.nodup_cons, List.nodup_append]
  refine ⟨?_, Entries.nodup_keys d.auto.members.sorted, Entries.nodup_keys d.manual.reread.members.sorted, ?_⟩
  · rw [List.mem_append, List.mem_map, List.mem_map]
    rintro (⟨e, member, same⟩ | ⟨e, member, same⟩)
    · exact (d.key_auto member).2.2 same
    · exact (d.key_manual member).2.2 same
  · intro key left key' right
    obtain ⟨e, auto, rfl⟩ := List.mem_map.1 left
    obtain ⟨e', manual, rfl⟩ := List.mem_map.1 right
    intro same
    have reserved := (d.key_manual manual).1
    rw [← same, (d.key_auto auto).1] at reserved
    cases reserved

/-- What is found under a key once the metadata is taken out. -/
theorem mem_rest_iff (d : Document) {key : String} {value : Json} :
    ((SortedMap.ofList d.rereadEntries).remove Namespace.metadataKey).get? key = some value ↔
      (key, value) ∈ d.auto.members.entries ∨ (key, value) ∈ d.manual.reread.members.entries := by
  rw [SortedMap.get?_remove]
  by_cases here : key = Namespace.metadataKey
  · rw [if_pos here]
    refine ⟨nofun, ?_⟩
    rintro (auto | manual)
    · exact absurd here (d.key_auto auto).2.2
    · exact absurd here (d.key_manual manual).2.2
  · rw [if_neg here, SortedMap.get?_ofList_eq_some_iff d.nodup_rereadEntries, rereadEntries, List.mem_cons,
      List.mem_append, Prod.mk.injEq]
    exact ⟨fun found => found.resolve_left fun same => here same.1, .inr⟩

theorem filter_rest_auto (d : Document) : ((SortedMap.ofList d.rereadEntries).remove Namespace.metadataKey).filter
    (fun key _ => !Namespace.isReserved key) = d.auto.members := by
  refine SortedMap.filter_eq_of_mem_iff fun key value => ?_
  rw [mem_rest_iff]
  refine ⟨?_, fun member => ⟨.inl member, by rw [(d.key_auto member).1]; rfl⟩⟩
  rintro ⟨auto | manual, unreserved⟩
  · exact auto
  · rw [(d.key_manual manual).1] at unreserved
    cases unreserved

theorem filter_rest_manual (d : Document) : ((SortedMap.ofList d.rereadEntries).remove Namespace.metadataKey).filter
    (fun key _ => Namespace.isManual key) = d.manual.reread.members := by
  refine SortedMap.filter_eq_of_mem_iff fun key value => ?_
  rw [mem_rest_iff]
  refine ⟨?_, fun member => ⟨.inr member, (d.key_manual member).2.1⟩⟩
  rintro ⟨auto | manual, own⟩
  · rw [(d.key_auto auto).2.1] at own
    cases own
  · exact manual

/-- Nothing is written that would be ignored. -/
theorem ignored_rest (d : Document) : (((SortedMap.ofList d.rereadEntries).remove Namespace.metadataKey).keys.filter
    fun key => Namespace.isReserved key && !Namespace.isManual key) = [] := by
  rw [List.filter_eq_nil_iff]
  intro key listed
  obtain ⟨⟨key, value⟩, member, rfl⟩ := List.mem_map.1 listed
  rw [SortedMap.mem_entries_iff, mem_rest_iff] at member
  obtain auto | manual := member
  · rw [(d.key_auto auto).1]
    exact Bool.false_ne_true
  · rw [(d.key_manual manual).2.1, Bool.not_true, Bool.and_false]
    exact Bool.false_ne_true

theorem ofMembers_rereadEntries (sound : d.Sound) : ofMembers (.ofList d.rereadEntries) = .ok d.reloaded := by
  have metadata : (SortedMap.ofList d.rereadEntries).get? Namespace.metadataKey = some d.metadata.encode.reread :=
    (SortedMap.get?_ofList_eq_some_iff d.nodup_rereadEntries).2 List.mem_cons_self
  rw [ofMembers, metadata]
  dsimp only
  rw [Metadata.decode_reread_encode sound.range]
  dsimp only
  rw [reloaded, Except.ok.injEq, Document.mk.injEq]
  exact ⟨rfl, AutoRegion.ext d.filter_rest_auto, ManualRegion.ext d.filter_rest_manual, d.ignored_rest⟩

/-- A sound document is read from its text. -/
theorem parse_text (sound : d.Sound) : parse d.text = .ok d.reloaded := by
  rw [parse, text, Json.parse_pretty (writable_toJson sound), reread_toJson sound]
  dsimp only
  rw [SortedMap.ofList_entries]
  exact ofMembers_rereadEntries sound

/-- A sound document is loaded from its bytes. -/
theorem priorOf_encode_text (sound : d.Sound) : Store.priorOf (Text.Utf8.encode d.text) = .loaded d.reloaded := by
  rw [Store.priorOf, Text.Utf8.decode_encode]
  dsimp only
  rw [parse_text sound]

/-! ## Documents that are loaded -/

/-- What is split from members is what they hold besides the metadata, by namespace. -/
theorem ofMembers_eq_ok {members : SortedMap String Json} (split : ofMembers members = .ok d) :
    d.auto.members = (members.remove Namespace.metadataKey).filter (fun key _ => !Namespace.isReserved key) ∧
      d.manual.members = (members.remove Namespace.metadataKey).filter (fun key _ => Namespace.isManual key) ∧
      d.ignored = (members.remove Namespace.metadataKey).keys.filter fun key =>
        Namespace.isReserved key && !Namespace.isManual key := by
  unfold ofMembers at split
  split at split
  · cases split
  · split at split
    · cases split
    · cases split
      exact ⟨rfl, rfl, rfl⟩

/-- A document is split from an object that was read. -/
theorem parse_eq_ok {text : String} (parsed : parse text = .ok d) :
    ∃ members, Json.parse text = .ok (.object members) ∧ (Json.object members).Writable depthLimit ∧
      (Json.object members).Canonical ∧ ofMembers (.ofList members) = .ok d := by
  unfold parse at parsed
  split at parsed
  · cases parsed
  · rename_i members whole
    obtain ⟨writable, canonical⟩ := Json.writable_of_parse whole
    exact ⟨members, whole, writable, canonical, parsed⟩
  · cases parsed

theorem kept_of_parse {text : String} (parsed : parse text = .ok d) : d.manual.Kept := by
  obtain ⟨members, -, writable, canonical, split⟩ := parse_eq_ok parsed
  rw [Canonical, canonicalMembers_iff] at canonical
  have fits : ∀ e ∈ members, e.2.Writable 127 := writableMembers_iff.1 writable
  rw [SortedMap.ofList_of_sorted canonical.1] at split
  intro e member
  rw [(ofMembers_eq_ok split).2.1] at member
  have listed : e ∈ members := (List.mem_filter.1 (List.mem_filter.1 member).1).1
  exact ⟨fits e listed, canonical.2 e listed⟩

theorem kept_of_priorOf {bytes : List UInt8} (found : Store.priorOf bytes = .loaded d) : d.manual.Kept := by
  unfold Store.priorOf at found
  split at found
  · cases found
  · split at found
    · rename_i parsed
      cases found
      exact kept_of_parse parsed
    · cases found

theorem kept_of_load {s : Store} {t : FileTree} {k : Kind} (found : s.load t k = .loaded d) : d.manual.Kept := by
  unfold Store.load at found
  split at found
  · exact kept_of_priorOf found
  · cases found
  · cases found

end Document

/-! ## Regions of fresh content -/

/-- Content is written as a record, and no field of it is reserved. -/
theorem Content.encode_record (content : Content) : ∃ members, content.encode = .record members ∧
    ∀ key ∈ members.map (·.1), Namespace.isReserved key = false := by
  cases content with
  | symbols r => exact ⟨_, rfl, (by decide : ∀ key ∈ SymbolRegistry.fields.names, Namespace.isReserved key = false)⟩
  | exports r => exact ⟨_, rfl, (by decide : ∀ key ∈ ExportRegistry.fields.names, Namespace.isReserved key = false)⟩
  | imports g => exact ⟨_, rfl, (by decide : ∀ key ∈ ImportGraph.fields.names, Namespace.isReserved key = false)⟩
  | techStack t => exact ⟨_, rfl, (by decide : ∀ key ∈ TechStack.fields.names, Namespace.isReserved key = false)⟩
  | patterns r => exact ⟨_, rfl, (by decide : ∀ key ∈ PatternReport.fields.names, Namespace.isReserved key = false)⟩
  | apiSurface s => exact ⟨_, rfl, (by decide : ∀ key ∈ Surface.fields.names, Namespace.isReserved key = false)⟩

namespace AutoRegion

variable {content : Content} {r : AutoRegion}

theorem toJson_ofContent (made : ofContent content = .ok r) : r.toJson = content.encode := by
  obtain ⟨members, form, -⟩ := content.encode_record
  rw [Fields.record_eq] at form
  rw [ofContent, form] at made
  change ofMap (.ofList (SortedMap.ofList members).entries) = .ok r at made
  rw [SortedMap.ofList_entries] at made
  unfold ofMap at made
  split at made
  · cases made
  · cases made
    exact form.symm

theorem exists_ofContent (content : Content) : ∃ r, ofContent content = .ok r := by
  obtain ⟨members, form, free⟩ := content.encode_record
  rw [Fields.record_eq] at form
  rw [ofContent, form]
  change ∃ r, ofMap (.ofList (SortedMap.ofList members).entries) = .ok r
  rw [SortedMap.ofList_entries]
  unfold ofMap
  split
  · rename_i key found
    obtain ⟨e, member, rfl⟩ := List.mem_map.1 (List.mem_of_find?_eq_some found)
    have reserved := List.find?_some found
    rw [free e.1 (List.mem_map_of_mem (SortedMap.mem_of_mem_ofList member))] at reserved
    cases reserved
  · exact ⟨_, rfl⟩

/-- A region of content that fits holds it. -/
theorem content_of_fits (fits : content.Fits) (made : ofContent content = .ok r) :
    r.content content.kind = .ok content := by
  rw [AutoRegion.content, Outcome.mapError_eq_ok, toJson_ofContent made]
  exact Content.returns fits

/-- Regions of content that fits tell it apart. -/
theorem ofContent_inj {content' : Content} (fits : content.Fits) (fits' : content'.Fits)
    (kind : content'.kind = content.kind) (same : ofContent content' = ofContent content) : content' = content := by
  obtain ⟨r, made⟩ := exists_ofContent content
  have held := content_of_fits fits made
  have held' := content_of_fits fits' (same.trans made)
  rw [kind, held, Except.ok.injEq] at held'
  exact held'.symm

/-- A region of fresh content that can be read holds that content, and its text is read back. -/
theorem content_ofContent {index : KeyIndex} (made : ofContent content = .ok r)
    (readable : r.keyIndex content.kind = .ok index) :
    r.content content.kind = .ok content ∧ index = content.keyIndex ∧ r.toJson.Plain 127 := by
  obtain ⟨read, held, same⟩ := Outcome.map_eq_ok.1 readable
  have decoded : Content.decode content.kind content.encode = .ok read := by
    rw [AutoRegion.content, Outcome.mapError_eq_ok, toJson_ofContent made] at held
    exact held
  obtain ⟨rfl, plain⟩ := Content.faithful (n := 121) content read decoded
  rw [toJson_ofContent made]
  exact ⟨held, same.symm, plain⟩

end AutoRegion

/-! ## Merging -/

theorem ManualRegion.kept_empty : ManualRegion.empty.Kept := nofun

/-- What a run merges is sound if what it found was. -/
theorem sound_merge {prior : Prior} {fresh : AutoRegion} {changes : UInt64} {now : Time.Instant}
    (kept : ∀ d, prior = .loaded d → d.manual.Kept) (range : now.inRange = true) (plain : fresh.toJson.Plain 127) :
    (merge prior fresh changes now).document.Sound := by
  unfold merge
  split
  · exact ⟨range, plain, ManualRegion.kept_empty⟩
  · exact ⟨range, plain, ManualRegion.kept_empty⟩
  · rename_i existing
    exact ⟨range, plain, kept existing rfl⟩

end Gazetteer
