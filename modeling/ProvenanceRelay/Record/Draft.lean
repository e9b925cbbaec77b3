import ProvenanceRelay.Record.Basic

/-!
Records under composition.

A draft starts as zeros and a tag. Bytes are put in place of others, and only where all of them
fit.
-/

namespace ProvenanceRelay

open Text

/-- The bytes of a record so far. -/
structure Draft where
  bytes : Bytes
  deriving DecidableEq

namespace Draft

def put (d : Draft) (offset : Nat) (bs : Bytes) : Option Draft :=
  if offset + bs.length ≤ d.bytes.length then
    some ⟨d.bytes.take offset ++ bs ++ d.bytes.drop (offset + bs.length)⟩
  else none

theorem length_put {d e : Draft} {offset : Nat} {bs : Bytes} (h : d.put offset bs = some e) :
    e.bytes.length = d.bytes.length := by
  unfold put at h
  split at h
  · cases h
    simp
    omega
  · cases h

/-- Zeros of the shape's size, with the tag in front. -/
def new (shape : Shape) (tag : Tag) : Draft :=
  ⟨Bytes.toLE 8 tag.toNat ++ List.replicate (shape.size - 8) 0⟩

theorem length_new (shape : Shape) (tag : Tag) : (new shape tag).bytes.length = shape.size := by
  have h : 8 ≤ shape.size := by cases shape <;> decide
  simp only [new, List.length_append, Bytes.length_toLE, List.length_replicate]
  omega

/-- Puts the low bytes of a number, least significant first. -/
def putNat (d : Draft) (offset width n : Nat) : Option Draft := d.put offset (Bytes.toLE width n)

def id (d : Draft) (n : UInt64) : Option Draft := d.putNat 8 8 n.toNat

def epoch (d : Draft) (n : UInt64) : Option Draft := d.putNat 40 8 n.toNat

def relation (d : Draft) (sender receiver : Identifier) : Option Draft := do
  let d ← d.put 64 sender.bytes
  let d ← d.put 96 receiver.bytes
  d.put 128 [1]

/-- A string behind the low 16 bits of its length. -/
def string (d : Draft) (s : String) : Option Draft := do
  let bs := Utf8.encode s
  let d ← d.putNat 64 2 bs.length
  d.put 66 bs

/-- An argument behind the low 16 bits of its length and the mark of truncation. -/
def argument (d : Draft) (s : String) (truncated : Bool) : Option Draft := do
  let bs := Utf8.encode s
  let d ← d.putNat 64 2 bs.length
  let d ← d.put 66 [if truncated then 1 else 0]
  d.put 68 bs

end Draft

end ProvenanceRelay
