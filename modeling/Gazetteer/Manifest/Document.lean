import Gazetteer.Json.Reader
import Gazetteer.Json.Printer
import Gazetteer.Registry.Content
import Gazetteer.Time.Timestamp

/-!
# Manifest documents

A manifest is one JSON object with three namespaces: its metadata under `_metadata`, the manual region under
`notes` and every key that starts with `_manual`, and the automatic region under the other keys that do not
start with an underscore.  The regions are types of their own, so an automatic region cannot hold a manual
key or the metadata.  `Document.parse` splits a text into the namespaces, `Document.text` writes the metadata
first, then the automatic, then the manual region.
-/

namespace Gazetteer

set_option autoImplicit false

open Json

/-- Why a manifest cannot be read, built or written. -/
inductive ManifestError
  | io (message : String)
  | json (message : String)
  | reservedKey (key : String)
  | structural (message : String)
  deriving Repr, DecidableEq

/-- How the error reads. -/
def ManifestError.message : ManifestError → String
  | .io message => s!"IO error: {message}"
  | .json message => s!"JSON error: {message}"
  | .reservedKey key => s!"Reserved key in auto-generated region: {key}"
  | .structural message => s!"Invalid manifest structure: {message}"

namespace Namespace

/-- The key of the metadata. -/
def metadataKey : String := "_metadata"

/-- How other manual keys start. -/
def manualLead : String := "_manual"

/-- The manual key for plain notes. -/
def notesKey : String := "notes"

/-- Whether a key belongs to the author. -/
def isManual (key : String) : Bool := Text.startsWith key manualLead || key = notesKey

/-- Whether a key cannot belong to the automatic region. -/
def isReserved (key : String) : Bool := Text.startsWith key "_" || key = notesKey

theorem isReserved_of_isManual {key : String} (h : isManual key = true) : isReserved key = true := by
  simp only [isManual, isReserved, Bool.or_eq_true] at h ⊢
  refine h.imp (fun h => ?_) id
  simp only [Text.startsWith, List.isPrefixOf_iff_prefix, manualLead] at h ⊢
  exact List.IsPrefix.trans (by simp) h

end Namespace

/-- Time, version and origin of a document. -/
structure Metadata where
  lastUpdated : Time.Instant
  /-- One for the first document of its kind, one more for each that replaces it; a word of 64 bits. -/
  version : UInt64
  changes : UInt64
  autoGenerated : Bool
  deriving Repr, DecidableEq

namespace Metadata

/-- Metadata as JSON, in the order of declaration. -/
def encode (m : Metadata) : Json :=
  .object [("lastUpdated", .string m.lastUpdated.text), ("version", .nat m.version.toNat),
    ("changesSinceLastUpdate", .nat m.changes.toNat), ("autoGenerated", .bool m.autoGenerated)]

/-- A timestamp. -/
def instant : Decoder Time.Instant
  | .string s =>
      match Time.Instant.parse s with
      | .ok t => .ok t
      | .error e => .error (.other e.message)
  | v => .error (.kind (kindOf v) "an RFC 3339 formatted date and time string")

/-- The fields of the metadata. -/
def fields : Fields Decoder (Time.Instant × UInt64 × UInt64 × Bool × Unit) :=
  .field "lastUpdated" instant .required <|
  .field "version" .longWord .required <|
  .field "changesSinceLastUpdate" .longWord .required <|
  .field "autoGenerated" .flag .required .done

/-- Read metadata. -/
def decode : Decoder Metadata := fun v => do
  let (lastUpdated, version, changes, autoGenerated, ()) ←
    fields.record "struct ManifestMetadata" v
  return ⟨lastUpdated, version, changes, autoGenerated⟩

end Metadata

/-- Content that every refresh computes anew. No key is reserved. -/
structure AutoRegion where
  members : SortedMap String Json
  plain : ∀ e ∈ members.entries, Namespace.isReserved e.1 = false

namespace AutoRegion

/-- The region without members. -/
def empty : AutoRegion := ⟨∅, by intro e he; cases he⟩

instance : Inhabited AutoRegion := ⟨empty⟩

/-- A region from members without reserved keys. -/
def ofMap (members : SortedMap String Json) : Except ManifestError AutoRegion :=
  match h : members.keys.find? Namespace.isReserved with
  | some key => .error (.reservedKey key)
  | none => .ok ⟨members, fun e he => by
      have := List.find?_eq_none.1 h e.1 (List.mem_map_of_mem he)
      simpa using this⟩

/-- A region from an object without reserved keys. -/
def ofJson : Json → Except ManifestError AutoRegion
  | .object members => ofMap (.ofList members)
  | _ => .error (.structural "auto-generated content must be a JSON object")

/-- The region that holds some content. -/
def ofContent (content : Content) : Except ManifestError AutoRegion := ofJson content.encode

/-- The region as an object. -/
def toJson (r : AutoRegion) : Json := .object r.members.entries

/-- The keys of the region. -/
def keys (r : AutoRegion) : List String := r.members.keys

/-- The text by which two regions are compared. -/
def canonical (r : AutoRegion) : String := r.toJson.compact

/-- The content the region holds. -/
def content (kind : Kind) (r : AutoRegion) : Except ManifestError Content :=
  (Content.decode kind r.toJson).mapError fun e => .json e.message

/-- The items the region documents. -/
def keyIndex (kind : Kind) (r : AutoRegion) : Except ManifestError KeyIndex :=
  (r.content kind).map (·.keyIndex)

end AutoRegion

/-- Content that belongs to the author. Every key is manual. -/
structure ManualRegion where
  members : SortedMap String Json
  manual : ∀ e ∈ members.entries, Namespace.isManual e.1 = true

namespace ManualRegion

/-- The region without members. -/
def empty : ManualRegion := ⟨∅, by intro e he; cases he⟩

instance : Inhabited ManualRegion := ⟨empty⟩

/-- Give a manual key a value. -/
def insert (r : ManualRegion) (key : String) (value : Json) : Except ManifestError ManualRegion :=
  if h : Namespace.isManual key = true then
    .ok ⟨r.members.insert key value, fun e he => by
      rcases Entries.mem_put he with rfl | he
      · exact h
      · exact r.manual e he⟩
  else
    .error (.structural (s!"'{key}' is not a manual key (use '{Namespace.notesKey}' or a " ++
      s!"'{Namespace.manualLead}' prefix)"))

/-- The value of a key. -/
def get? (r : ManualRegion) (key : String) : Option Json := r.members.get? key

end ManualRegion

/-- A manifest. -/
structure Document where
  metadata : Metadata
  auto : AutoRegion
  manual : ManualRegion
  /-- Keys with an underscore that are neither metadata nor manual; they are never written. -/
  ignored : List String

namespace Document

/-- Split an object into its namespaces. -/
def ofMembers (members : SortedMap String Json) : Except ManifestError Document :=
  match members.get? Namespace.metadataKey with
  | none => .error (.structural s!"missing '{Namespace.metadataKey}'")
  | some metadata =>
      match Metadata.decode metadata with
      | .error e => .error (.json e.message)
      | .ok metadata =>
          let rest := members.remove Namespace.metadataKey
          .ok {
            metadata
            auto := ⟨rest.filter fun key _ => !Namespace.isReserved key, fun e he => by
              simpa using (List.mem_filter.1 he).2⟩
            manual := ⟨rest.filter fun key _ => Namespace.isManual key, fun e he =>
              (List.mem_filter.1 he).2⟩
            ignored := rest.keys.filter fun key =>
              Namespace.isReserved key && !Namespace.isManual key }

/-- Read a document from its text. -/
def parse (text : String) : Except ManifestError Document :=
  match Json.parse text with
  | .error e => .error (.json e.message)
  | .ok (.object members) => ofMembers (.ofList members)
  | .ok _ => .error (.structural "top level must be a JSON object")

/-- Read a document from the front of a text. -/
def reader : Reader Document := fun cs =>
  match skipSpace cs with
  | '\x7b' :: cs =>
      match readMembers (cs.length + 1) (depthLimit - 1) true [] cs with
      | .error fault => .error (.malformed fault)
      | .ok (members, rest) =>
          match ofMembers (.ofList members) with
          | .ok d => .ok (d, rest)
          | .error e => .error (.refused e.message)
  | cs => Reader.mismatched "a map" cs

/-- The document as one object, its metadata first. -/
def toJson (d : Document) : Json :=
  .object ((Namespace.metadataKey, d.metadata.encode) ::
    (d.auto.members.entries ++ d.manual.members.entries))

/-- The text of a document. -/
def text (d : Document) : String := d.toJson.pretty ++ "\n"

end Document

/-- What was found where a manifest belongs. -/
inductive Prior
  | missing
  | loaded (document : Document)
  /-- Something that is no manifest, with as many of its bytes as could be read. -/
  | corrupt (reason : String) (raw : List UInt8)

namespace Prior

/-- The document, if there is one. -/
def document? : Prior → Option Document
  | .loaded d => some d
  | _ => none

/-- Whether something was found. -/
def isPresent : Prior → Bool
  | .missing => false
  | _ => true

end Prior

end Gazetteer
