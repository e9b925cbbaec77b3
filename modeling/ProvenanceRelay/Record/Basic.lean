import ProvenanceRelay.Record.Identifier
import ProvenanceRelay.Text.Utf8

/-!
Records: byte lists of exactly the size of their shape.

A field is read with a proof that it lies inside the record, so reading needs no failure of its
own. What can be wrong with a record is a `DecodeError`.
-/

namespace ProvenanceRelay

open Text

/-- The two sizes of records. A channel carries one of them. -/
inductive Shape where
  | short
  | long
  deriving DecidableEq, Repr

namespace Shape

def size : Shape → Nat
  | short => 256
  | long => 4352

def name : Shape → String
  | short => "short"
  | long => "long"

theorem size_pos (s : Shape) : 0 < s.size := by cases s <;> decide

end Shape

/-- The parts of a long record whose length is stored beside them. -/
inductive Area where
  | string
  | path
  | address
  | xattrValue
  | disclosedContent
  | packetContent
  | argument
  deriving DecidableEq, Repr

/-- The room for strings, paths and arguments. -/
def pathMax : Nat := 4096

namespace Area

def name : Area → String
  | string => "string"
  | path => "path"
  | address => "address"
  | xattrValue => "xattr value"
  | disclosedContent => "disclosed content"
  | packetContent => "packet content"
  | argument => "argument"

def capacity : Area → Nat
  | string => pathMax
  | path => pathMax
  | address => 128
  | xattrValue => 2048
  | disclosedContent => pathMax
  | packetContent => 2048
  | argument => pathMax

end Area

inductive DecodeError where
  | wrongSize (expected actual : Nat)
  | unknownRelation (tag : Tag)
  | unknownNode (tag : Tag)
  | unknownLong (tag : Tag)
  | tooLong (area : Area) (length : Nat)
  deriving DecidableEq, Repr

namespace DecodeError

def tagText (t : Tag) : String := "0x" ++ Numeral.hex t.toNat

def message : DecodeError → String
  | wrongSize expected actual =>
    "Wrong size " ++ Numeral.decimal actual ++ " expected: " ++ Numeral.decimal expected
  | unknownRelation t => "unknown relation type " ++ tagText t
  | unknownNode t => "unknown node type " ++ tagText t
  | unknownLong t => "unknown node long type " ++ tagText t
  | tooLong area length =>
    "malformed " ++ area.name ++ ": length " ++ Numeral.decimal length ++ " exceeds capacity " ++
      Numeral.decimal area.capacity

end DecodeError

abbrev Record (shape : Shape) := Chunk shape.size

namespace Record

variable {shape : Shape}

def headerSize : Nat := 64

def parse (shape : Shape) (bs : Bytes) : Except DecodeError (Record shape) :=
  if h : bs.length = shape.size then .ok ⟨bs, h⟩ else .error (.wrongSize shape.size bs.length)

theorem header_fits (s : Shape) : headerSize ≤ s.size := by cases s <;> decide

/-- A stretch of the part that all records share. -/
def head (r : Record shape) (offset width : Nat) (h : offset + width ≤ headerSize := by decide) :
    Chunk width :=
  r.sub offset width (Nat.le_trans h (header_fits shape))

def identifier (r : Record shape) : Identifier := ⟨r.head 0 32⟩

def tag (r : Record shape) : Tag := (r.head 0 8).u64

end Record

structure Header where
  identifier : Identifier
  flags : UInt32
  epoch : UInt64
  deriving DecidableEq

def Record.header {shape : Shape} (r : Record shape) : Header where
  identifier := r.identifier
  flags := (r.head 32 4).u32
  epoch := (r.head 40 8).u64

/-- The text of a stretch that a zero byte may end. -/
def Chunk.zeroEnded {w : Nat} (c : Chunk w) : String :=
  Utf8.decodeLossy (Utf8.untilZero c.bytes)

/-- Reads a stored length against the room that it must fit in. -/
def Area.check (area : Area) (length : Nat) :
    Except DecodeError { n : Nat // n ≤ area.capacity } :=
  if h : length ≤ area.capacity then .ok ⟨length, h⟩ else .error (.tooLong area length)

end ProvenanceRelay
