import ProvenanceRelay.Net.Address
import ProvenanceRelay.Record.Basic

/-!
Long records: nodes that carry text, addresses or contents.

A stored length is checked against the room for what it measures before anything is read. Text that
is no UTF-8 is read leniently.
-/

namespace ProvenanceRelay

open Text

structure StringEntry where
  header : Header
  value : String
  deriving DecidableEq

/-- A path bound to the identifier in the header. -/
structure PathEntry where
  header : Header
  name : String
  deriving DecidableEq

/-- The address of a socket; there is none for families that have no internet address. -/
structure AddressEntry where
  header : Header
  family : UInt16
  address : Option Net.SocketAddress
  deriving DecidableEq

structure XattrEntry where
  header : Header
  name : String
  value : Bytes
  flags : UInt8
  deriving DecidableEq

inductive DisclosedKind where
  | entity
  | activity
  | agent
  deriving DecidableEq, Repr

def DisclosedKind.name : DisclosedKind → String
  | entity => "entity"
  | activity => "activity"
  | agent => "agent"

/-- A node that a program has told about itself. -/
structure DisclosedNode where
  header : Header
  kind : DisclosedKind
  parent : Identifier
  content : String
  deriving DecidableEq

structure PacketContent where
  header : Header
  content : Bytes
  truncated : Bool
  deriving DecidableEq

structure Argument where
  header : Header
  environment : Bool
  value : String
  truncated : Bool
  deriving DecidableEq

/-- The machine that the records come from. -/
structure Machine where
  header : Header
  sysname : String
  nodename : String
  release : String
  version : String
  machine : String
  tracerVersion : UInt8 × UInt8 × UInt8
  commit : String
  deriving DecidableEq

inductive LongPayload where
  | string (e : StringEntry)
  | path (e : PathEntry)
  | address (e : AddressEntry)
  | xattr (e : XattrEntry)
  | disclosed (n : DisclosedNode)
  | packetContent (e : PacketContent)
  | argument (e : Argument)
  | machine (e : Machine)
  deriving DecidableEq

/-! ### Addresses -/

/-- The family of internet addresses of the older kind. -/
def familyV4 : UInt16 := 2

/-- The family of internet addresses of the newer kind. -/
def familyV6 : UInt16 := 10

/-- The family and the address in the bytes of a socket address. Bytes that follow are ignored,
and an address that is cut short is none. -/
def socketAddress {w : Nat} (raw : Chunk w) : UInt16 × Option Net.SocketAddress :=
  if h : w < 2 then (0, none)
  else
    let family := (raw.sub 0 2 (by omega)).u16
    if family = familyV4 then
      if h4 : 8 ≤ w then
        (family, some (.v4 (raw.sub 4 4 (by omega)).netU32 (raw.sub 2 2 (by omega)).netU16))
      else (family, none)
    else if family = familyV6 then
      if h6 : 28 ≤ w then
        let ip := BitVec.ofNat 128 (Bytes.ofBE (raw.sub 8 16 (by omega)).bytes)
        (family, some (.v6 ip (raw.sub 2 2 (by omega)).netU16 (raw.sub 4 4 (by omega)).netU32
          (raw.sub 24 4 (by omega)).u32))
      else (family, none)
    else (family, none)

namespace Record

variable (r : Record .long)

/-- The bytes from `offset` on whose number is stored elsewhere in the record. -/
def area (a : Area) (offset length : Nat) (h : offset + a.capacity ≤ Shape.long.size := by decide) :
    Except DecodeError (Σ n, Chunk n) := do
  let n ← a.check length
  return ⟨n.val, r.sub offset n.val (by have := n.property; omega)⟩

/-- A string behind its length. -/
def sizedText (a : Area) (offset length : Nat)
    (h : offset + a.capacity ≤ Shape.long.size := by decide) : Except DecodeError String := do
  let c ← r.area a offset length h
  return Utf8.decodeLossy c.2.bytes

def stringEntry : Except DecodeError StringEntry := do
  return { header := r.header, value := ← r.sizedText .string 66 (r.sub 64 2).u16.toNat }

def pathEntry : Except DecodeError PathEntry := do
  return { header := r.header, name := ← r.sizedText .path 66 (r.sub 64 2).u16.toNat }

def addressEntry : Except DecodeError AddressEntry := do
  let raw ← r.area .address 66 (r.sub 64 2).u16.toNat
  let (family, address) := socketAddress raw.2
  return { header := r.header, family, address }

def xattrEntry : Except DecodeError XattrEntry := do
  let value ← r.area .xattrValue 324 (r.sub 320 4).u32.toNat
  return {
    header := r.header
    name := (r.sub 64 256).zeroEnded
    value := value.2.bytes
    flags := (r.sub 2372 1).byte }

def disclosedNode (kind : DisclosedKind) : Except DecodeError DisclosedNode := do
  return {
    header := r.header
    kind
    parent := ⟨r.sub 64 32⟩
    content := ← r.sizedText .disclosedContent 98 (r.sub 96 2).u16.toNat }

def packetContent : Except DecodeError PacketContent := do
  let content ← r.area .packetContent 72 (r.sub 64 4).u32.toNat
  return {
    header := r.header
    content := content.2.bytes
    truncated := (r.sub 68 1).byte ≠ 0 }

def argument (environment : Bool) : Except DecodeError Argument := do
  return {
    header := r.header
    environment
    value := ← r.sizedText .argument 68 (r.sub 64 2).u16.toNat
    truncated := (r.sub 66 1).byte ≠ 0 }

def machine : Machine where
  header := r.header
  sysname := (r.sub 64 65).zeroEnded
  nodename := (r.sub 129 65).zeroEnded
  release := (r.sub 194 65).zeroEnded
  version := (r.sub 259 65).zeroEnded
  machine := (r.sub 324 65).zeroEnded
  tracerVersion := ((r.sub 389 1).byte, (r.sub 390 1).byte, (r.sub 391 1).byte)
  commit := (r.sub 392 40).zeroEnded

def classifyLong (t : Tag) : Except DecodeError LongKind :=
  match LongKind.ofTag? t with
  | some k => .ok k
  | none => .error (.unknownLong t)

def longPayload : LongKind → Except DecodeError LongPayload
  | .string => .string <$> r.stringEntry
  | .path => .path <$> r.pathEntry
  | .address => .address <$> r.addressEntry
  | .xattr => .xattr <$> r.xattrEntry
  | .disclosedEntity => .disclosed <$> r.disclosedNode .entity
  | .disclosedActivity => .disclosed <$> r.disclosedNode .activity
  | .disclosedAgent => .disclosed <$> r.disclosedNode .agent
  | .packetContent => .packetContent <$> r.packetContent
  | .argument => .argument <$> r.argument false
  | .environment => .argument <$> r.argument true
  | .machine => .ok (.machine r.machine)

def decodeLong : Except DecodeError LongPayload := do
  r.longPayload (← classifyLong r.tag)

end Record

end ProvenanceRelay
