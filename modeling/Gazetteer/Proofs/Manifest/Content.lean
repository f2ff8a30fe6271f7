import Gazetteer.Proofs.Json.Nesting
import Gazetteer.Proofs.Manifest.Reload

/-!
# Content in a document

Content whose numbers fit their words is the content of its region, and still is when the region has gone through the
text of a document (`AutoRegion.content_of_parse`).  What else the document holds does not matter, as long as its text
can be read at all: the manual region must be of whole numbers and no deeper than a reader goes.
-/

namespace Gazetteer

set_option autoImplicit false

open Json

/-- The manual region as an object. -/
def ManualRegion.toJson (r : ManualRegion) : Json := .object r.members.entries

/-- A manual region as an author may write it: objects have their keys in order, numbers are integers of 64 bits, signed
or not, and no more than 127 arrays and objects lie in one another. -/
structure ManualRegion.Plain (r : ManualRegion) : Prop where
  canonical : r.toJson.Canonical
  whole : r.toJson.isWhole = true
  nested : r.toJson.nesting ≤ 127

namespace ManualRegion.Plain

variable {r : ManualRegion}

theorem kept (plain : r.Plain) : r.Kept := by
  have canonical := plain.canonical
  rw [toJson, Canonical, canonicalMembers_iff] at canonical
  have each := wholeMembers_iff.1 plain.whole
  have shallow := nestingMembers_le_iff.1 (Nat.le_of_succ_le_succ plain.nested)
  exact fun e member =>
    ⟨writable_of_nesting e.2 (each e member) (Nat.lt_succ_of_le (shallow e member)), canonical.2 e member⟩

theorem integral (plain : r.Plain) : r.Integral := fun e member =>
  integral_of_isWhole e.2 (wholeMembers_iff.1 plain.whole e member)

end ManualRegion.Plain

namespace AutoRegion

/-- Content makes a region that holds it and documents its items; and so does the automatic region of what is read from
the text of any document with this region, beside a plain manual region. -/
theorem content_of_parse {content : Content} (fits : content.Fits) :
    ∃ r, ofContent content = .ok r ∧ r.content content.kind = .ok content ∧
      r.keyIndex content.kind = .ok content.keyIndex ∧
      ∀ d : Document, d.auto = r → d.manual.Plain → d.metadata.lastUpdated.inRange = true →
        ∃ d', Document.parse d.text = .ok d' ∧ d'.auto.content content.kind = .ok content ∧
          d'.auto.keyIndex content.kind = .ok content.keyIndex ∧ d'.manual = d.manual := by
  obtain ⟨r, made⟩ := exists_ofContent content
  have held := content_of_fits fits made
  have indexed : r.keyIndex content.kind = .ok content.keyIndex := Outcome.map_eq_ok.2 ⟨content, held, rfl⟩
  refine ⟨r, made, held, indexed, fun d auto plain range => ?_⟩
  subst auto
  have sound : d.Sound := ⟨range, (content_ofContent made indexed).2.2, plain.kept⟩
  exact ⟨d.reloaded, Document.parse_text sound, held, indexed, ManualRegion.reread_of_kept plain.kept plain.integral⟩

/-- A method with one parameter that has a type and one that has none. -/
def sampleContent : Content :=
  .symbols ⟨1, 1, SortedMap.empty.insert "src/é.ts" [⟨"save", "User.save", .method, "src/é.ts", 4294967295,
    "save(\"a\n\", to)", true, false, [⟨"a", some "\"b\"", true⟩, ⟨"to", none, false⟩], none⟩]⟩

/-- A manual region with a nested note. -/
def sampleNotes : ManualRegion where
  members := SortedMap.empty.insert "notes" (.object [("a", .array [.null, .nat 18446744073709551615])])
  manual := by decide

theorem content_of_parse_sample :
    sampleContent.Fits ∧ sampleNotes.Plain ∧
      ∃ r d', ofContent sampleContent = .ok r ∧
        Document.parse (Document.text ⟨⟨⟨-1, 5⟩, 1, 2, true⟩, r, sampleNotes, ["_x"]⟩) = .ok d' ∧
        d'.auto.content .symbols = .ok sampleContent ∧ d'.auto.keyIndex .symbols = .ok sampleContent.keyIndex := by
  have fits : sampleContent.Fits := ⟨by decide, by decide, by decide⟩
  have inner : Entries.Sorted [("a", Json.array [.null, .nat 18446744073709551615])] := List.pairwise_singleton _ _
  have plain : sampleNotes.Plain :=
    ⟨⟨sampleNotes.members.sorted, ⟨inner, ⟨trivial, trivial, trivial⟩, trivial⟩, trivial⟩, by decide, by decide⟩
  have range : Time.Instant.inRange ⟨-1, 5⟩ = true := by decide
  obtain ⟨r, made, -, -, read⟩ := content_of_parse fits
  obtain ⟨d', parsed, held, indexed, -⟩ := read ⟨⟨⟨-1, 5⟩, 1, 2, true⟩, r, sampleNotes, ["_x"]⟩ rfl plain range
  exact ⟨fits, plain, r, d', made, parsed, held, indexed⟩

end AutoRegion

end Gazetteer
