import ProvenanceRelay.Bytes
import ProvenanceRelay.Record.Kind
import ProvenanceRelay.Text.Numeral

/-!
The 32-byte names of provenance nodes.

Identifiers are compared as a whole. The leading fields are read for their text, which leaves the
last four bytes out.
-/

namespace ProvenanceRelay

/-- A stretch of bytes whose length is known. -/
structure Chunk (width : Nat) where
  bytes : Bytes
  length_eq : bytes.length = width
  deriving DecidableEq

namespace Chunk

variable {w : Nat}

def byte (c : Chunk 1) : UInt8 := UInt8.ofNat (Bytes.ofLE c.bytes)
def u16 (c : Chunk 2) : UInt16 := UInt16.ofNat (Bytes.ofLE c.bytes)
def u32 (c : Chunk 4) : UInt32 := UInt32.ofNat (Bytes.ofLE c.bytes)
def u64 (c : Chunk 8) : UInt64 := UInt64.ofNat (Bytes.ofLE c.bytes)

def i64 (c : Chunk 8) : Int64 := c.u64.toInt64

/-- A word in network order. -/
def netU16 (c : Chunk 2) : UInt16 := UInt16.ofNat (Bytes.ofBE c.bytes)
def netU32 (c : Chunk 4) : UInt32 := UInt32.ofNat (Bytes.ofBE c.bytes)

/-- The `width` bytes from `offset` on, which the chunk must hold. -/
def sub (c : Chunk w) (offset width : Nat) (h : offset + width ≤ w := by decide) : Chunk width :=
  ⟨(c.bytes.drop offset).take width, by simp [c.length_eq]; omega⟩

end Chunk

/-- The name of a node: its tag, its number, and where and when it was given. -/
structure Identifier extends Chunk 32
  deriving DecidableEq

namespace Identifier

def size : Nat := 32

def ofBytes? (bs : Bytes) : Option Identifier :=
  if h : bs.length = 32 then some ⟨⟨bs, h⟩⟩ else none

def tag (i : Identifier) : Tag := (i.sub 0 8).u64
def id (i : Identifier) : UInt64 := (i.sub 8 8).u64
def bootId (i : Identifier) : UInt32 := (i.sub 16 4).u32
def machineId (i : Identifier) : UInt32 := (i.sub 20 4).u32
def version (i : Identifier) : UInt32 := (i.sub 24 4).u32

/-- The identifier with a tag and a number, and zeros elsewhere. -/
def new (tag : Tag) (id : UInt64) : Identifier :=
  ⟨⟨Bytes.toLE 8 tag.toNat ++ Bytes.toLE 8 id.toNat ++ List.replicate 16 0, by simp⟩⟩

/-- The five fields after one another, the tag in hexadecimal. -/
def text (i : Identifier) : String :=
  ":".intercalate
    [Text.Numeral.hex i.tag.toNat, Text.Numeral.decimal i.id.toNat,
      Text.Numeral.decimal i.bootId.toNat, Text.Numeral.decimal i.machineId.toNat,
      Text.Numeral.decimal i.version.toNat]

def debugText (i : Identifier) : String := "Identifier(" ++ i.text ++ ")"

end Identifier

end ProvenanceRelay
