import Mathlib
import ProvenanceRelay.Proofs.FirstWriter
import ProvenanceRelay.Proofs.LineReading
import ProvenanceRelay.Proofs.LongLayout
import ProvenanceRelay.Proofs.ShortLayout

/-!
What the text of an identifier tells.

The text is that of the fields, and the fields are the bytes up to the reserved ones. So identifiers
that differ in their reserved bytes alone have one text, although a table of names keeps them apart,
and no others do. Wherever a record has an identifier, its line has the text in quotes.
-/

namespace ProvenanceRelay

open Text
open Toml (hexDigit?)

/-! ### Values within values -/

namespace Json

variable {j v : Json} {key : String} {path : List String}

/-- The value that keys lead to, each of them the key of one member. -/
def valueAt? : List String → Json → Option Json
  | [], j => some j
  | key :: path, j => (j.member? key).bind (valueAt? path)

lemma mem_of_member? (h : j.member? key = some v) : ∃ fs, j = .object fs ∧ (key, v) ∈ fs := by
  cases j with
  | object fs =>
    have hmem : v ∈ members key (.object fs) := by
      unfold member? at h
      split at h
      · next heq => exact heq ▸ Option.some.inj h ▸ List.mem_singleton_self _
      · cases h
    obtain ⟨⟨k, w⟩, hkept, rfl⟩ := List.mem_map.mp hmem
    obtain ⟨hfield, hkey⟩ := List.mem_filter.mp hkept
    obtain rfl : k = key := of_decide_eq_true hkey
    exact ⟨fs, rfl, hfield⟩
  | _ => cases h

lemma pieces_infix_fieldPieces {fs : List (String × Json)} (h : (key, v) ∈ fs) :
    pieces v <:+: fieldPieces fs := by
  induction fs with
  | nil => cases h
  | cons f fs ih =>
    obtain ⟨k, w⟩ := f
    have hsplit : fieldPieces ((k, w) :: fs) =
        (stringPieces k ++ [":"]) ++ pieces w ++ moreFieldPieces fs := by simp [fieldPieces]
    rw [hsplit]
    rcases List.mem_cons.mp h with heq | h
    · cases heq
      exact List.infix_append _ _ _
    · -- Members that follow are written like those of an object, behind a comma.
      have hmore : fieldPieces fs <:+ moreFieldPieces fs := by
        cases fs with
        | nil => cases h
        | cons f fs => exact List.suffix_cons "," _
      exact (ih h).trans (hmore.trans (List.suffix_append _ _)).isInfix

lemma pieces_infix_of_valueAt? (h : j.valueAt? path = some v) : pieces v <:+: pieces j := by
  induction path generalizing j with
  | nil =>
    cases h
    exact List.infix_rfl
  | cons key path ih =>
    obtain ⟨w, hmember, hvalue⟩ := Option.bind_eq_some_iff.mp h
    obtain ⟨fs, rfl, hfield⟩ := mem_of_member? hmember
    calc pieces v
        <:+: pieces w := ih hvalue
      _ <:+: fieldPieces fs := pieces_infix_fieldPieces hfield
      _ <:+: pieces (.object fs) := by
        rw [pieces]
        exact (List.suffix_cons _ _).isInfix

lemma exists_compact_eq (h : j.valueAt? path = some v) :
    ∃ before after, j.compact = before ++ v.compact ++ after := by
  obtain ⟨before, after, hpieces⟩ := pieces_infix_of_valueAt? h
  refine ⟨String.join before, String.join after, ?_⟩
  rw [compact, ← hpieces, String.join_append, String.join_append, compact]

/-- A text that needs no escapes is written as it is. -/
lemma compact_string {s : String} (h : ∀ c ∈ s.toList, isPlain c) :
    (Json.string s).compact = "\"" ++ s ++ "\"" := by
  have hplain : s.toList.flatMap charText = s.toList := by
    rw [List.flatMap_congr fun c hc => charText_of_isPlain (h c hc)]
    exact List.flatMap_singleton' _
  have hchars : (Json.string s).compact.toList = chars (stringPieces s) := by
    rw [compact, pieces]
    exact String.toList_join
  apply String.toList_injective
  rw [hchars, chars_stringPieces, hplain]
  simp

lemma isPlain_of_isSome_hexDigit? {c : Char} (h : (hexDigit? c).isSome) : isPlain c := by
  have hle : '0' ≤ c := by
    unfold hexDigit? at h
    split_ifs at h with hdecimal hlower hupper
    · exact hdecimal.1
    · exact le_trans (by decide) hlower.1
    · exact le_trans (by decide) hupper.1
    · cases h
  have hnat : 48 ≤ c.toNat := hle
  have hquote : c ≠ '"' := by
    rintro rfl
    cases h
  have hslash : c ≠ '\\' := by
    rintro rfl
    cases h
  rw [isPlain, escape?, if_neg hquote, if_neg hslash, if_neg (by omega), if_neg (by omega),
    if_neg (by omega), if_neg (by omega), if_neg (by omega), if_neg (by omega)]
  rfl

end Json

lemma forall_mem_intercalate {p : Char → Bool} {mark : Char} (hmark : p mark) {texts : List String}
    (htexts : ∀ t ∈ texts, ∀ c ∈ t.toList, p c) :
    ∀ c ∈ ((String.singleton mark).intercalate texts).toList, p c := by
  rw [String.toList_intercalate, String.toList_singleton]
  induction texts with
  | nil => simp
  | cons t texts ih =>
    obtain ⟨ht, htexts⟩ := List.forall_mem_cons.mp htexts
    cases texts with
    | nil => simpa using ht
    | cons u texts =>
      rw [List.map_cons, List.map_cons, List.intercalate_cons_cons, List.forall_mem_append,
        List.forall_mem_append, List.forall_mem_singleton]
      exact ⟨⟨ht, hmark⟩, ih htexts⟩

/-! ### Texts of identifiers -/

namespace Identifier

variable {a b : Identifier}

lemma isPlain_of_mem_text (i : Identifier) : ∀ c ∈ i.text.toList, Json.isPlain c := by
  have hmark : Json.isPlain ':' := rfl
  have hhex (n : ℕ) : ∀ c ∈ (Numeral.hex n).toList, Json.isPlain c := fun c hc =>
    Json.isPlain_of_isSome_hexDigit? (Numeral.isSome_of_mem_hex n c hc)
  have hdecimal (n : ℕ) : ∀ c ∈ (Numeral.decimal n).toList, Json.isPlain c := fun c hc =>
    Json.isPlain_of_isSome_hexDigit? (Numeral.isSome_of_mem_decimal n c hc)
  refine forall_mem_intercalate hmark ?_
  simp only [List.mem_cons, List.not_mem_nil, or_false, forall_eq_or_imp, forall_eq]
  exact ⟨hhex _, hdecimal _, hdecimal _, hdecimal _, hdecimal _⟩

/-- In JSON an identifier is its text in quotes. -/
lemma compact_json (i : Identifier) : i.json.compact = "\"" ++ i.text ++ "\"" :=
  Json.compact_string i.isPlain_of_mem_text

lemma sub_congr (h : a.bytes.take 28 = b.bytes.take 28) {offset width : ℕ}
    (hwidth : offset + width ≤ 28) :
    a.sub offset width (by omega) = b.sub offset width (by omega) := by
  have htake : a.bytes.take (offset + width) = b.bytes.take (offset + width) := by
    calc a.bytes.take (offset + width)
        = (a.bytes.take 28).take (offset + width) := by
          rw [List.take_take, Nat.min_eq_left hwidth]
      _ = (b.bytes.take 28).take (offset + width) := by rw [h]
      _ = b.bytes.take (offset + width) := by rw [List.take_take, Nat.min_eq_left hwidth]
  simp only [Chunk.sub, List.take_drop, htake]

/-- No field reaches into the reserved bytes. -/
lemma text_congr (h : a.bytes.take 28 = b.bytes.take 28) : a.text = b.text := by
  simp only [text, tag, id, bootId, machineId, version]
  rw [sub_congr h (by omega : 0 + 8 ≤ 28), sub_congr h (by omega : 8 + 8 ≤ 28),
    sub_congr h (by omega : 16 + 4 ≤ 28), sub_congr h (by omega : 20 + 4 ≤ 28),
    sub_congr h (by omega : 24 + 4 ≤ 28)]

lemma take_unreserved (i : Identifier) : i.unreserved.bytes.take 28 = i.bytes.take 28 := by
  simp [unreserved, i.length_eq]

/-- Identifiers print alike if they agree up to the reserved bytes, and only then. -/
lemma text_eq_iff : a.text = b.text ↔ a.bytes.take 28 = b.bytes.take 28 := by
  constructor
  · intro htext
    have hread : some a.unreserved = some b.unreserved := by
      rw [← ofText?_text, ← ofText?_text, htext]
    rw [← take_unreserved a, ← take_unreserved b, Option.some.inj hread]
  · exact text_congr

lemma compact_json_eq_iff : a.json.compact = b.json.compact ↔ a.text = b.text := by
  rw [compact_json, compact_json]
  constructor
  · intro h
    simpa using h
  · intro h
    rw [h]

end Identifier

/-! ### Names -/

namespace NameTable

variable {a b : Identifier}

def KeepsApart (a b : Identifier) : Prop :=
  ∀ (t : NameTable) (name : String), (t.insert a name).lookup b = t.lookup b

lemma keepsApart_iff : KeepsApart a b ↔ a ≠ b := by
  constructor
  · rintro h rfl
    have hempty := h .empty ""
    rw [lookup_insert, if_pos rfl] at hempty
    cases hempty
  · intro h t name
    rw [lookup_insert, if_neg h.symm]

/-- Of the identifiers that print alike, those are kept apart that differ in the reserved bytes. -/
lemma text_eq_and_keepsApart_iff :
    a.text = b.text ∧ KeepsApart a b ↔
      a.bytes.take 28 = b.bytes.take 28 ∧ a.bytes.drop 28 ≠ b.bytes.drop 28 := by
  rw [Identifier.text_eq_iff, keepsApart_iff]
  refine and_congr_right fun htake => not_congr ⟨?_, ?_⟩
  · rintro rfl
    rfl
  · intro hdrop
    apply Identifier.eq_of_bytes
    rw [← List.take_append_drop 28 a.bytes, htake, hdrop, List.take_append_drop]

end NameTable

/-! ### Lines -/

namespace Payload

def header : Payload → Header
  | short p => p.header
  | long p => p.header

/-- The identifiers of a record, each with the keys that lead to it in the document. -/
def identifiers (p : Payload) : List (List String × Identifier) :=
  (["header", "identifier"], p.header.identifier) ::
    match p with
    | short (.relation r) => [(["sender"], r.sender), (["receiver"], r.receiver)]
    | long (.disclosed n) => [(["parent"], n.parent)]
    | _ => []

lemma valueAt?_header (p : Payload) :
    p.json.valueAt? ["header", "identifier"] = some p.header.identifier.json := by
  rcases p with p | p <;> cases p <;> rfl

lemma valueAt?_json (p : Payload) : ∀ e ∈ p.identifiers, p.json.valueAt? e.1 = some e.2.json := by
  refine List.forall_mem_cons.mpr ⟨p.valueAt?_header, ?_⟩
  rcases p with p | p
  · cases p with
    | relation r => exact List.forall_mem_cons.mpr ⟨rfl, List.forall_mem_singleton.mpr rfl⟩
    | _ => exact List.forall_mem_nil _
  · cases p with
    | disclosed n => exact List.forall_mem_singleton.mpr rfl
    | _ => exact List.forall_mem_nil _

end Payload

namespace Output

/-- The text has the identifiers of the record: each in its place, and each in quotes. -/
def Prints (text : String) (p : Payload) : Prop :=
  ∀ e ∈ p.identifiers,
    (Json.read? text).bind (Json.valueAt? ("record" :: e.1)) = some (.string e.2.text) ∧
      ∃ before after, text = before ++ ("\"" ++ e.2.text ++ "\"") ++ after

lemma Line.prints (l : Line) : Prints l.json.compact l.payload := by
  intro e he
  have hmember : l.json.member? "record" = some l.payload.json := by
    obtain ⟨p, sender, receiver⟩ := l
    cases sender <;> cases receiver <;> simp [Line.json, endName, Json.member?]
  have hplace : l.json.valueAt? ("record" :: e.1) = some e.2.json := by
    rw [Json.valueAt?, hmember, Option.bind_some, l.payload.valueAt?_json e he]
  constructor
  · rw [Json.read?_compact, Option.bind_some, hplace]
    rfl
  · rw [← Identifier.compact_json]
    exact Json.exists_compact_eq hplace

namespace JsonLines

open Dispatch

variable {config : OutputConfig} {d : Dispatcher JsonLines}

lemma Ready.exists_prints (h : Ready config d) (xs : List Delivery) :
    ∃ text, (d.deliverAll xs).state.out.sink.written = d.state.out.sink.written ++ text ∧
      List.Forall₂ Prints (between text).dropLast
        (if config.queryMode then [] else xs.filterMap (payload? config)) := by
  refine ⟨_, (h.adds_deliverAll xs).written, ?_⟩
  rw [between_linesText, List.dropLast_concat, List.map_map, ← map_payload_linesFrom_acts config d,
    List.forall₂_map_left_iff, List.forall₂_map_right_iff, List.forall₂_same]
  exact fun l _ => l.prints

end JsonLines

end Output

open Output JsonLines
open NameTable (KeepsApart)

namespace Identifier

/-- **The text of an identifier tells all but its reserved bytes.** Two identifiers have one text
just if they agree on their first 28 bytes. So of those that a table of names keeps apart, just
those print alike that differ in the four reserved bytes and in no others. In JSON an identifier is
its text in quotes, and each line that is written has the texts of all identifiers of its record. -/
theorem text_faithful :
    (∀ a b : Identifier,
      (a.text = b.text ↔ a.bytes.take 28 = b.bytes.take 28) ∧
      (a.json.compact = b.json.compact ↔ a.bytes.take 28 = b.bytes.take 28) ∧
      (a.text = b.text ∧ KeepsApart a b ↔
        a.bytes.take 28 = b.bytes.take 28 ∧ a.bytes.drop 28 ≠ b.bytes.drop 28)) ∧
    (∀ i : Identifier, i.json.compact = "\"" ++ i.text ++ "\"") ∧
    ∀ (config : OutputConfig) (d : Dispatcher JsonLines), Ready config d → ∀ xs : List Delivery,
      ∃ text, (d.deliverAll xs).state.out.sink.written = d.state.out.sink.written ++ text ∧
        List.Forall₂ Prints (between text).dropLast
          (if config.queryMode then [] else xs.filterMap (payload? config)) := by
  refine ⟨fun a b => ⟨text_eq_iff, ?_, NameTable.text_eq_and_keepsApart_iff⟩, compact_json, ?_⟩
  · rw [compact_json_eq_iff, text_eq_iff]
  · intro config d hready xs
    exact hready.exists_prints xs

/-- An identifier with a number in each of its fields, and with a byte among the reserved ones. -/
def numbered (reserved : UInt8) : Identifier where
  bytes := Bytes.toLE 8 0x2000000000000004 ++ Bytes.toLE 8 42 ++ Bytes.toLE 4 7 ++ Bytes.toLE 4 9 ++
    Bytes.toLE 4 3 ++ [0, 0, 0, reserved]
  length_eq := by simp

example : (numbered 0).text = "2000000000000004:42:7:9:3" := by decide

/-- A relation between two identifiers that print alike. -/
def numberedUsed : Record .short where
  bytes := Bytes.toLE 8 (Tag.relation ||| RelationKind.used.categoryBit).toNat ++
    List.replicate 56 0 ++ (numbered 0).bytes ++ (numbered 1).bytes ++ List.replicate 128 0
  length_eq := by
    simp only [List.length_append, Bytes.length_toLE, List.length_replicate, Chunk.length_eq,
      Shape.size]

lemma payload?_numberedUsed :
    payload? {} (.slice .short numberedUsed.bytes) =
      some (.short (.relation (numberedUsed.relation .used))) := by
  have hparse : AnyRecord.parse .short numberedUsed.bytes = .ok (.short numberedUsed) := by
    rw [AnyRecord.parse, Record.parse, dif_pos numberedUsed.length_eq]
    rfl
  rw [payload?, hparse]
  rfl

/-- An instance with two identifiers that differ in the last byte alone, and with the line of the
relation between them. -/
theorem text_faithful_numbered :
    let d : Dispatcher JsonLines := { handler := handler {}, state := JsonLines.new .working }
    let rel := numberedUsed.relation .used
    (numbered 0).text = (numbered 1).text ∧
      (numbered 0).json.compact = (numbered 1).json.compact ∧
      KeepsApart (numbered 0) (numbered 1) ∧
      (numbered 0).json.compact = "\"" ++ (numbered 0).text ++ "\"" ∧
      Ready {} d ∧ rel.sender = numbered 0 ∧ rel.receiver = numbered 1 ∧
      ∃ text,
        (d.deliverAll [.slice .short numberedUsed.bytes]).state.out.sink.written = "" ++ text ∧
          List.Forall₂ Prints (between text).dropLast [.short (.relation rel)] := by
  intro d rel
  obtain ⟨htexts, hjson, hlines⟩ := text_faithful
  obtain ⟨-, hcompact, hapart⟩ := htexts (numbered 0) (numbered 1)
  have hagree : (numbered 0).bytes.take 28 = (numbered 1).bytes.take 28 := rfl
  obtain ⟨htext, hkept⟩ := hapart.mpr ⟨hagree, by decide⟩
  have hready : Ready {} d := ⟨rfl, fun _ _ => rfl, rfl⟩
  have hpayloads : [Delivery.slice .short numberedUsed.bytes].filterMap (payload? {}) =
      [.short (.relation rel)] := by
    rw [List.filterMap_cons, payload?_numberedUsed]
    rfl
  have hline := hlines {} d hready [.slice .short numberedUsed.bytes]
  rw [hpayloads] at hline
  exact ⟨htext, hcompact.mpr hagree, hkept, hjson _, hready, rfl, rfl, hline⟩

end Identifier

end ProvenanceRelay
