import Gazetteer.Proofs.Manifest.RoundTrip
import Gazetteer.Proofs.Upkeep.Idempotence
import Gazetteer.Proofs.Upkeep.Interruption
import Gazetteer.Proofs.Upkeep.Recovery

/-!
# What a refresh does with a manifest

Nothing that an author wrote into a manifest goes without a word.  Each key of a manifest that can be read is in the
next version, with its value if it is manual, or the report names it (`Document.Follows`, `Run.Names`); and a manifest
that cannot be read is copied byte by byte, and reported (`Run.carries_or_tells`).
-/

namespace Gazetteer

set_option autoImplicit false

open Json

theorem Kind.slug_inj {k k' : Kind} (same : k.slug = k'.slug) : k = k' := by
  have apart : ∀ k k' : Kind, k = k' ∨ k.slug ≠ k'.slug := by
    intro k k'
    cases k <;> cases k' <;> decide
  exact (apart k k').resolve_right fun other => other same

/-! ## The keys of the next version -/

namespace Document

open Namespace

/-- The top-level keys of a document as it is written. -/
def keys (d : Document) : List String := metadataKey :: (d.keysOf .auto ++ d.keysOf .manual)

/-- A document takes the place of one with some members; the keys it does not take over are dropped or ignored. -/
structure Follows (next : Document) (members : List (String × Json)) (dropped ignored : List String) : Prop where
  kept : ∀ key value, (key, value) ∈ members →
    key = metadataKey ∨ next.manual.get? key = some value ∨ key ∈ next.auto.keys ∨ key ∈ dropped ∨ key ∈ ignored
  gone : ∀ key ∈ dropped ++ ignored, key ∈ members.map (·.1) ∧ key ∉ next.keys

variable {d : Document} {members : List (String × Json)} {fresh : AutoRegion} {changes : UInt64} {now : Time.Instant}

theorem splits_of_parse {text : String} (read : parse text = .ok d) :
    ∃ members, Json.parse text = .ok (.object members) ∧ Splits members d := by
  obtain ⟨members, whole, -, canonical, split⟩ := parse_eq_ok read
  rw [Canonical, canonicalMembers_iff] at canonical
  rw [SortedMap.ofList_of_sorted canonical.1] at split
  exact ⟨members, whole, splits_of_ofMembers split⟩

theorem regionOf_of_fresh {key : String} (listed : key ∈ fresh.keys) : regionOf key = .auto := by
  obtain ⟨e, member, rfl⟩ := List.mem_map.1 listed
  have plain := fresh.plain e member
  rw [← Bool.not_eq_true, isReserved_iff, not_not] at plain
  exact plain

/-- The next version of a document follows what the document was read from. -/
theorem follows_merge (splits : Splits members d) :
    (merge (.loaded d) fresh changes now).document.Follows members (merge (.loaded d) fresh changes now).dropped
      d.ignored where
  kept key value listed := by
    by_cases metadata : key = metadataKey
    · exact .inl metadata
    have lands := splits.lands key value listed metadata
    right
    cases region : regionOf key with
    | manual =>
      rw [region] at lands
      exact .inl lands
    | auto =>
      rw [region] at lands
      have old : key ∈ d.auto.keys := SortedMap.mem_keys_iff.2 ⟨value, lands⟩
      cases still : fresh.members.contains key with
      | true => exact .inr (.inl (SortedMap.contains_iff_mem_keys.1 still))
      | false => exact .inr (.inr (.inl (List.mem_filter.2 ⟨old, by rw [still]; rfl⟩)))
    | ignored =>
      rw [region] at lands
      exact .inr (.inr (.inr lands))
  gone key listed := by
    -- a key that is dropped was in the automatic region, and one that is ignored in none that is written
    have place : (key ∈ d.keysOf .auto ∧ key ∉ fresh.keys) ∨ key ∈ d.keysOf .ignored := by
      refine (List.mem_append.1 listed).imp (fun dropped => ?_) id
      obtain ⟨old, away⟩ := List.mem_filter.1 dropped
      refine ⟨old, fun still => ?_⟩
      rw [SortedMap.contains_iff_mem_keys.2 still] at away
      cases away
    have there : key ≠ metadataKey ∧ key ∈ members.map (·.1) :=
      place.elim (fun old => splits.only _ key old.1) (splits.only _ key)
    have once := splits.once key there.2 there.1
    refine ⟨there.2, fun carried => ?_⟩
    obtain metadata | carried := List.mem_cons.1 carried
    · exact there.1 metadata
    obtain auto | manual := List.mem_append.1 carried
    · change key ∈ fresh.keys at auto
      obtain ⟨-, away⟩ | ignored := place
      · exact away auto
      · exact absurd ((once _).1 ignored) (by rw [regionOf_of_fresh auto]; decide)
    · have own : Region.manual = regionOf key := (once .manual).1 manual
      obtain ⟨old, -⟩ | ignored := place
      · exact absurd ((once _).1 old) (by rw [← own]; decide)
      · exact absurd ((once _).1 ignored) (by rw [← own]; decide)

/-- Where all numbers of the manual region are integers, the next version is loaded as it is. -/
theorem reloaded_merge (kept : d.manual.Kept) (integral : d.manual.Integral) :
    (merge (.loaded d) fresh changes now).document.reloaded = (merge (.loaded d) fresh changes now).document := by
  rw [reloaded, merge, ManualRegion.reread_of_kept kept integral]

end Document

/-! ## Bytes that are read -/

namespace Store

variable {bytes : List UInt8}

theorem priorOf_of_parse {text : String} {d : Document} (decoded : Text.Utf8.decode bytes = .ok text)
    (read : Document.parse text = .ok d) : priorOf bytes = .loaded d := by
  rw [priorOf, decoded]
  dsimp only
  rw [read]

theorem priorOf_of_unreadable
    (unreadable : ∀ text d, Text.Utf8.decode bytes = .ok text → Document.parse text ≠ .ok d) :
    ∃ reason, priorOf bytes = .corrupt reason bytes := by
  unfold priorOf
  split
  · exact ⟨_, rfl⟩
  · rename_i text decoded
    split
    · rename_i d read
      exact absurd read (unreadable text d decoded)
    · exact ⟨_, rfl⟩

end Store

namespace Run

variable {c : ScanContext} {t : FileTree} {history : History} {now : Time.Instant} {kinds skipped : List Kind}
  {analysis : Analysis} {settled : List Settled} {k : Kind} {fresh : AutoRegion} {s : Settled} {i : Issue}
  {l : Location} {report : RefreshReport}

/-! ## Keys that are reported -/

/-- The issue of keys that are not in the new version. -/
def droppedKeys (k : Kind) (keys : List String) : Issue :=
  ⟨.droppedKeys, k.slug, "hand-edited keys outside '_manual' were replaced: " ++ String.intercalate ", " keys⟩

/-- The issue of reserved keys that are not kept. -/
def ignoredKeys (k : Kind) (keys : List String) : Issue :=
  ⟨.ignoredKeys, k.slug, "unrecognised reserved keys are not preserved: " ++ String.intercalate ", " keys ++
    "; move them under '_manual'"⟩

/-- A report names the keys of a manifest that are dropped and those that are ignored, each in one issue if there are
any. -/
structure Names (report : RefreshReport) (k : Kind) (dropped ignored : List String) : Prop where
  dropped : ∀ i, i ∈ report.issues ∧ i.topic = .droppedKeys ∧ i.subject = k.slug ↔
    dropped ≠ [] ∧ i = droppedKeys k dropped
  ignored : ∀ i, i ∈ report.issues ∧ i.topic = .ignoredKeys ∧ i.subject = k.slug ↔
    ignored ≠ [] ∧ i = ignoredKeys k ignored

theorem mem_droppedIssue {outcome : MergeOutcome} :
    i ∈ droppedIssue k outcome ↔ outcome.dropped ≠ [] ∧ i = droppedKeys k outcome.dropped := by
  rw [droppedIssue]
  cases outcome.dropped with
  | nil => simp
  | cons key keys => simp [droppedKeys]

theorem mem_ignoredIssue {found : Found} :
    i ∈ ignoredIssue found ↔ ∃ d, found.2 = .loaded d ∧ d.ignored ≠ [] ∧ i = ignoredKeys found.1 d.ignored := by
  obtain ⟨k, prior⟩ := found
  rw [ignoredIssue]
  cases prior with
  | missing => simp [Prior.document?]
  | corrupt reason raw => simp [Prior.document?]
  | loaded d =>
    simp only [Prior.document?, Prior.loaded.injEq, exists_eq_left']
    cases d.ignored with
    | nil => simp
    | cons key keys => simp [ignoredKeys]

theorem topic_of_mem_rebuiltIssue {st : Store} {found : Found} {outcome : MergeOutcome}
    (member : i ∈ rebuiltIssue st found outcome) : i.topic = .corruptManifest := by
  unfold rebuiltIssue at member
  split at member
  · rw [List.mem_singleton.1 member]
  · cases member

section Settled

variable {tree : FileTree} {d : Document}
  (each : List.Forall₂ (fun k s => ∃ fresh, Settles c tree analysis now (k, (store c).load t k) fresh s) kinds settled)
  (settles : Settles c tree analysis now (k, (store c).load t k) fresh s) (member : s ∈ settled)
include each settles member

/-- What a report says of the keys of one kind is what is settled for this kind. -/
theorem mem_issues_iff (topic : i.topic = .droppedKeys ∨ i.topic = .ignoredKeys) :
    i ∈ (reportOf analysis [] settled).issues ∧ i.subject = k.slug ↔
      i ∈ ignoredIssue (k, (store c).load t k) ∨
        i ∈ droppedIssue k (next c analysis now (k, (store c).load t k) fresh) := by
  constructor
  · rintro ⟨told, subject⟩
    obtain survey | own := List.mem_append.1 told
    · obtain ⟨scan, -⟩ | extraction | dependencies := surveyIssues_topic _ survey
      · exact absurd topic (by rw [scan]; decide)
      · exact absurd topic (by rw [extraction]; decide)
      · exact absurd topic (by rw [dependencies]; decide)
    obtain ⟨s', chosen, told⟩ := List.mem_flatMap.1 own
    obtain ⟨k', -, fresh', settles'⟩ := Outcome.exists_of_mem_right each chosen
    rw [settles'.issues] at told
    obtain front | dropped := List.mem_append.1 told
    · obtain rebuilt | ignored := List.mem_append.1 front
      · exact absurd topic (by rw [topic_of_mem_rebuiltIssue rebuilt]; decide)
      · obtain ⟨d, -, -, same⟩ := mem_ignoredIssue.1 ignored
        obtain rfl : k' = k := Kind.slug_inj (by rw [← subject, same]; rfl)
        exact .inl ignored
    · obtain ⟨-, same⟩ := mem_droppedIssue.1 dropped
      obtain rfl : k' = k := Kind.slug_inj (by rw [← subject, same]; rfl)
      -- the same content makes the same region
      obtain rfl : fresh' = fresh := Except.ok.inj (settles'.made.symm.trans settles.made)
      exact .inr dropped
  · intro told
    refine ⟨List.mem_append_right _ (List.mem_flatMap.2 ⟨s, member, ?_⟩), ?_⟩
    · rw [settles.issues]
      obtain ignored | dropped := told
      · exact List.mem_append_left _ (List.mem_append_right _ ignored)
      · exact List.mem_append_right _ dropped
    · obtain ignored | dropped := told
      · obtain ⟨d, -, -, rfl⟩ := mem_ignoredIssue.1 ignored
        rfl
      · obtain ⟨-, rfl⟩ := mem_droppedIssue.1 dropped
        rfl

/-- The report names the keys of a document that the next version drops, and those that were ignored. -/
theorem names_of_settles (loaded : (store c).load t k = .loaded d) :
    Names (reportOf analysis [] settled) k (next c analysis now (k, .loaded d) fresh).dropped d.ignored where
  dropped i := by
    constructor
    · rintro ⟨told, topic, subject⟩
      obtain ignored | dropped := (mem_issues_iff each settles member (.inl topic)).1 ⟨told, subject⟩
      · rw [topic_of_mem_ignoredIssue ignored] at topic
        cases topic
      · rw [loaded] at dropped
        exact mem_droppedIssue.1 dropped
    · intro named
      have dropped := mem_droppedIssue.2 named
      have topic := topic_of_mem_droppedIssue dropped
      rw [← loaded] at dropped
      obtain ⟨told, subject⟩ := (mem_issues_iff each settles member (.inl topic)).2 (.inr dropped)
      exact ⟨told, topic, subject⟩
  ignored i := by
    constructor
    · rintro ⟨told, topic, subject⟩
      obtain ignored | dropped := (mem_issues_iff each settles member (.inr topic)).1 ⟨told, subject⟩
      · rw [loaded] at ignored
        obtain ⟨d', same, named⟩ := mem_ignoredIssue.1 ignored
        cases same
        exact named
      · rw [topic_of_mem_droppedIssue dropped] at topic
        cases topic
    · intro named
      have ignored : i ∈ ignoredIssue (k, .loaded d) := mem_ignoredIssue.2 ⟨d, rfl, named⟩
      have topic := topic_of_mem_ignoredIssue ignored
      rw [← loaded] at ignored
      obtain ⟨told, subject⟩ := (mem_issues_iff each settles member (.inr topic)).2 (.inl ignored)
      exact ⟨told, topic, subject⟩

end Settled

/-! ## Files that are written -/

section Written

variable (here : (prepared c t).FolderAt (store c).dir l)
  (free : (prepared c t).Free l (files c analysis now ((store c).loadAll t kinds)))
  (settles : Settles c (prepared c t) analysis now (k, (store c).load t k) fresh s) (listed : k ∈ kinds)
include here free settles listed

/-- The manifest of a kind that was written is the text of the next version. -/
theorem read_written :
    ((prepared c t).writeFiles l (files c analysis now ((store c).loadAll t kinds))).read ((store c).path k) =
      .ok (Text.Utf8.encode (next c analysis now (k, (store c).load t k) fresh).document.text) := by
  have after := here.of_keeps (FileTree.keeps_writeFiles free)
  rw [Store.path, FileTree.read_join k.isName_fileName after, get?_written settles listed]

/-- A manifest that could not be read is copied. -/
theorem read_copied {reason : String} {raw : List UInt8} (corrupt : (store c).load t k = .corrupt reason raw)
    (filled : raw ≠ []) :
    ((prepared c t).writeFiles l (files c analysis now ((store c).loadAll t kinds))).read ((store c).backupPath k) =
      .ok raw := by
  have after := here.of_keeps (FileTree.keeps_writeFiles free)
  have copied := backup_mem_of_prefix corrupt filled (fun a => prior_of_mem_loadAll) List.prefix_rfl
    k.fileName_mem_names (manifest_mem_files settles listed)
  have held := FileTree.get?_writeFiles_of_mem (t := prepared c t) (l := l) (agree_of_lead List.prefix_rfl) copied
  rw [Store.backupPath, FileTree.read_join (Kind.isName_of_mem_names (k := k) List.mem_cons_self) after, held]

end Written

/-- A refresh that succeeds loses nothing of a manifest without a word.  If the manifest can be read, it is replaced by
a document with the fresh region that follows it, and the keys that the document does not take over are named.  If it
cannot be and holds anything, its bytes are in the copy, and the manifest is reported. -/
theorem carries_or_tells {bytes : List UInt8} (range : now.inRange = true)
    (done : (refresh c t history now kinds).result = .ok report) (listed : k ∈ kinds)
    (there : t.read ((store c).path k) = .ok bytes) :
    (∀ text d, Text.Utf8.decode bytes = .ok text → Document.parse text = .ok d →
      ∃ members, ∃ next : Document, ∃ dropped ignored, Json.parse text = .ok (.object members) ∧
        AutoRegion.ofContent ((Survey.take c t).content k) = .ok next.auto ∧
        next.Follows members dropped ignored ∧ Names report k dropped ignored ∧
        (refresh c t history now kinds).tree.read ((store c).path k) = .ok (Text.Utf8.encode next.text) ∧
        (store c).load (refresh c t history now kinds).tree k = .loaded next.reloaded ∧
        (next.manual.Integral → next.reloaded = next)) ∧
    ((∀ text d, Text.Utf8.decode bytes = .ok text → Document.parse text ≠ .ok d) → bytes ≠ [] →
      (refresh c t history now kinds).tree.read ((store c).backupPath k) = .ok bytes ∧
        ∃ reason : String, ⟨.corruptManifest, ((store c).path k).text,
          s!"rebuilt from scratch ({reason})" ++ s!"; previous content saved to {((store c).backupPath k).text}"⟩ ∈
            report.issues) := by
  have filled : (store c).loadAll t kinds ≠ [] := loadAll_ne_nil (List.ne_nil_of_mem listed)
  obtain ⟨settled, l, ready, here, free, tree, rfl⟩ := ready_of_ok filled done
  change (refresh c t history now kinds).tree = _ at tree
  have each := settles_each ready.each
  obtain ⟨s, member, fresh, settles⟩ := Outcome.exists_of_mem_left each listed
  have found : (store c).load t k = Store.priorOf bytes := Store.load_of_read there
  rw [tree]
  refine ⟨fun text d decoded read => ?_, fun unreadable some => ?_⟩
  · have loaded : (store c).load t k = .loaded d := found.trans (Store.priorOf_of_parse decoded read)
    obtain ⟨members, whole, splits⟩ := Document.splits_of_parse read
    have text := read_written here free settles listed
    have reloaded := load_written here free settles listed range
    have names := names_of_settles each settles member loaded
    rw [loaded] at text reloaded
    refine ⟨members, _, _, _, whole, ?_, Document.follows_merge splits, names, text, reloaded, fun integral => ?_⟩
    · exact settles.made
    · exact Document.reloaded_merge (Document.kept_of_parse read) integral
  · obtain ⟨reason, corrupt⟩ := Store.priorOf_of_unreadable unreadable
    have corrupt : (store c).load t k = .corrupt reason bytes := found.trans corrupt
    refine ⟨read_copied here free settles listed corrupt some, reason, ?_⟩
    refine List.mem_append_right _ (List.mem_flatMap.2 ⟨s, member, ?_⟩)
    rw [settles.issues, corrupt, rebuiltIssue_corrupt, if_neg fun none => some (List.isEmpty_iff.1 none)]
    exact List.mem_append_left _ (List.mem_append_left _ List.mem_cons_self)

/-- A manifest with a note, a key that no longer has a place and a reserved key that never had one. -/
def writtenText : String :=
  "\x7b\"_metadata\":\x7b\"lastUpdated\":\"2026-01-01T00:00:00Z\",\"version\":4,\"changesSinceLastUpdate\":0," ++
    "\"autoGenerated\":true\x7d,\"notes\":0.5,\"owner\":\"core\",\"_custom\":[1]\x7d"

/-- The sample repository with this manifest, and with one that is no text. -/
def writtenTree : FileTree :=
  (sampleTree.put ["r", ".cartograph", "imports.json"] (.file (Text.Utf8.encode writtenText))).put
    ["r", ".cartograph", "symbols.json"] (.file [0xff, 0x21])

/-- A refresh of both names the keys that it does not take over, and copies what is no text. -/
theorem carries_or_tells_written :
    (⟨0, 0⟩ : Time.Instant).inRange = true ∧ ∃ report,
      (refresh sampleContext writtenTree (fun _ => none) ⟨0, 0⟩ [.imports, .symbols]).result = .ok report ∧
      (∃ members, ∃ next : Document, ∃ dropped ignored, Json.parse writtenText = .ok (.object members) ∧
        next.Follows members dropped ignored ∧ Names report .imports dropped ignored) ∧
      droppedKeys .imports ["owner"] ∈ report.issues ∧ ignoredKeys .imports ["_custom"] ∈ report.issues ∧
      (refresh sampleContext writtenTree (fun _ => none) ⟨0, 0⟩ [.imports, .symbols]).tree.read
        ((store sampleContext).backupPath .symbols) = .ok [0xff, 0x21] := by
  have range : (⟨0, 0⟩ : Time.Instant).inRange = true := by decide
  have told : ((refresh sampleContext writtenTree (fun _ => none) ⟨0, 0⟩ [.imports, .symbols]).result.toOption.any
      fun report => decide (droppedKeys .imports ["owner"] ∈ report.issues) &&
        decide (ignoredKeys .imports ["_custom"] ∈ report.issues)) = true := by decide +kernel
  obtain ⟨report, found, issues⟩ := (Option.any_eq_true _ _).1 told
  rw [Bool.and_eq_true, decide_eq_true_eq, decide_eq_true_eq] at issues
  have done := Outcome.toOption_eq_some.1 found
  have manifest : writtenTree.read ((store sampleContext).path .imports) = .ok (Text.Utf8.encode writtenText) := by
    decide +kernel
  have spoilt : writtenTree.read ((store sampleContext).path .symbols) = .ok [0xff, 0x21] := by decide +kernel
  obtain ⟨d, read⟩ := Outcome.exists_of_isOk (by decide +kernel : (Document.parse writtenText).isOk = true)
  obtain ⟨e, refused⟩ := Outcome.exists_of_not_isOk
    (by decide +kernel : (Text.Utf8.decode [0xff, 0x21]).isOk = false)
  obtain ⟨carried, -⟩ := carries_or_tells range done List.mem_cons_self manifest
  obtain ⟨-, copied⟩ := carries_or_tells range done (List.mem_cons_of_mem _ List.mem_cons_self) spoilt
  obtain ⟨members, next, dropped, ignored, whole, -, follows, names, -⟩ :=
    carried writtenText d (Text.Utf8.decode_encode _) read
  obtain ⟨backup, -⟩ := copied (fun text d decoded => by rw [refused] at decoded; cases decoded) (List.cons_ne_nil _ _)
  exact ⟨range, report, done, ⟨members, next, dropped, ignored, whole, follows, names⟩, issues.1, issues.2, backup⟩

end Run

end Gazetteer
