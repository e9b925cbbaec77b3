import Mathlib
import ProvenanceRelay.Output.Handover
import ProvenanceRelay.Proofs.DocumentReading
import ProvenanceRelay.Proofs.JsonReading
import ProvenanceRelay.Proofs.Kinds

/-!
A line is read back from its text.

The text of a line has no control character, so it ends where the newline behind it stands, and a
text of lines falls into them when it is cut at its newlines. Each is one object, from which the
kind, the names of the ends and the record are read.
-/

namespace ProvenanceRelay

open Text

/-! ### Bytes -/

lemma le_of_mem_utf8EncodeChar {c : Char} (h : 0x20 ≤ c.toNat) :
    ∀ b ∈ String.utf8EncodeChar c, 0x20 ≤ b := by
  have hbyte {n : ℕ} (hlow : 0x20 ≤ n) (hhigh : n < 256) : 0x20 ≤ UInt8.ofNat n := by
    rw [UInt8.le_iff_toNat_le, UInt8.toNat_ofNat_of_lt' hhigh]
    exact hlow
  have hascii : 0x20 ≤ c.val.toNat := h
  intro b hb
  unfold String.utf8EncodeChar at hb
  dsimp only at hb
  split_ifs at hb with hone <;> simp only [List.mem_cons, List.not_mem_nil, or_false] at hb
  · rw [hb]
    exact hbyte hascii (by omega)
  · rcases hb with rfl | rfl <;> exact hbyte (by omega) (by omega)
  · rcases hb with rfl | rfl | rfl <;> exact hbyte (by omega) (by omega)
  · rcases hb with rfl | rfl | rfl | rfl <;> exact hbyte (by omega) (by omega)

lemma Json.Printable.le_of_mem_encode {t : String} (h : Json.Printable t) :
    ∀ b ∈ Utf8.encode t, 0x20 ≤ b := by
  intro b hb
  obtain ⟨c, hc, hb⟩ := List.mem_flatMap.mp hb
  exact le_of_mem_utf8EncodeChar (h c hc) b hb

namespace Output

/-! ### One line -/

/-- What is read from a line. -/
structure Reading where
  kind : Kind
  sender : Option String
  receiver : Option String
  record : Payload
  /-- The text of the address that the record has. -/
  address : Option String
  deriving DecidableEq

namespace Reading

/-- The text of an address stands in the document of a record of that kind. -/
def addressText? (document : Json) (k : Kind) : Option (Option String) :=
  if k = .address then document.field? "address" else some none

def ofJson? (j : Json) : Option Reading := do
  let kind ← Kind.ofName? (← j.field? "kind")
  let record ← j.member? "record"
  return {
    kind
    sender := ← j.optional? "sender_name"
    receiver := ← j.optional? "receiver_name"
    record := ← Payload.read? record kind
    address := ← addressText? record kind }

def ofText? (text : String) : Option Reading := (Json.read? text).bind ofJson?

def of (l : Line) : Reading where
  kind := l.payload.kind
  sender := l.sender
  receiver := l.receiver
  record := l.payload.told
  address := l.payload.addressText

lemma addressText?_json (p : Payload) : addressText? p.json p.kind = some p.addressText := by
  rcases p with p | p
  · cases p with
    | relation r =>
      obtain ⟨header, k, sender, receiver, allowed, set, offset, flags, taskId⟩ := r
      cases k <;> rfl
    | _ => rfl
  · cases p with
    | address e => exact field?_address e
    | disclosed n =>
      obtain ⟨header, k, parent, content⟩ := n
      cases k <;> rfl
    | _ => rfl

/-- **A line says what it was written for.** -/
lemma ofText?_compact (l : Line) : ofText? l.json.compact = some (.of l) := by
  obtain ⟨p, sender, receiver⟩ := l
  have hkind := Kind.ofName?_name p.kind
  have hrecord := p.read?_json
  have haddress := addressText?_json p
  rw [ofText?, Json.read?_compact, Option.bind_some, Line.json, of]
  cases sender <;> cases receiver <;>
    simp [ofJson?, endName, Json.member?, Json.optional?, hkind, hrecord, haddress]

end Reading

/-! ### All lines -/

/-- The parts of a text between its newlines. -/
def between (text : String) : List String := (text.toList.splitOn '\n').map String.ofList

namespace JsonLines

/-- The lines as they are written. -/
def linesText (lines : List Json) : String := String.join (lines.map fun l => l.compact ++ "\n")

lemma linesText_append (ls ms : List Json) :
    linesText (ls ++ ms) = linesText ls ++ linesText ms := by
  rw [linesText, linesText, linesText, List.map_append, String.join_append]

/-- A text of lines falls into them, and nothing is left behind the last newline. -/
lemma between_linesText (ls : List Json) :
    between (linesText ls) = ls.map Json.compact ++ [""] := by
  have htext : (linesText ls).toList =
      ['\n'].intercalate (ls.map (·.compact.toList) ++ [[]]) := by
    induction ls with
    | nil => rfl
    | cons l ls ih =>
      have hne : ls.map (·.compact.toList) ++ [[]] ≠ [] := by simp
      obtain ⟨x, xs, hx⟩ := List.exists_cons_of_ne_nil hne
      have hcons : linesText (l :: ls) = l.compact ++ "\n" ++ linesText ls := by
        simp [linesText]
      rw [hcons, String.toList_append, String.toList_append, ih, List.map_cons, List.cons_append,
        hx, List.intercalate_cons_cons]
      rfl
  have hline : ∀ t ∈ ls.map (·.compact.toList) ++ [[]], '\n' ∉ t := by
    intro t ht
    rcases List.mem_append.mp ht with ht | ht
    · obtain ⟨l, -, rfl⟩ := List.mem_map.mp ht
      exact l.newline_notMem_compact
    · rw [List.mem_singleton.mp ht]
      exact List.not_mem_nil
  rw [between, htext, List.splitOn_intercalate _ hline (by simp), List.map_append, List.map_map]
  simp [Function.comp_def]

/-- **Lines are read back from their text.** -/
lemma ofText?_between (ls : List Line) :
    (between (linesText (ls.map Line.json))).dropLast.map Reading.ofText? =
      ls.map fun l => some (.of l) := by
  rw [between_linesText, List.dropLast_concat, List.map_map, List.map_map]
  exact List.map_congr_left fun l _ => Reading.ofText?_compact l

end JsonLines

end Output

end ProvenanceRelay
