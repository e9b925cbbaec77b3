import Mathlib
import ProvenanceRelay.Output.JsonLines
import ProvenanceRelay.Proofs.IdentifierText

/-!
A decoded record is read from its document.

A member is read under its key, which no other member may have, as a value of the type of its field.
Nothing is lost but what a document leaves out: the reserved bytes of identifiers. The address of a
socket comes back as its text.
-/

namespace ProvenanceRelay

/-! ### Values -/

/-- A type whose values are read from JSON. -/
class Readable (α : Type) where
  read? : Json → Option α

open Readable

namespace Json

/-- The values of the members with a key. -/
def members (key : String) : Json → List Json
  | .object fs => (fs.filter (·.1 = key)).map Prod.snd
  | _ => []

/-- The value of the one member with a key. -/
def member? (j : Json) (key : String) : Option Json :=
  match j.members key with
  | [v] => some v
  | _ => none

def field? {α : Type} [Readable α] (j : Json) (key : String) : Option α :=
  (j.member? key).bind read?

/-- A member that may be left out. -/
def optional? {α : Type} [Readable α] (j : Json) (key : String) : Option (Option α) :=
  match j.members key with
  | [] => some none
  | [v] => (read? v).map some
  | _ => none

section

variable {key k : String} {v : Json} {fs : List (String × Json)}

@[simp] lemma members_nil : members key (.object []) = [] := rfl

@[simp] lemma members_cons_self :
    members key (.object ((key, v) :: fs)) = v :: members key (.object fs) := by
  simp [members]

@[simp] lemma members_cons_of_ne (h : k ≠ key) :
    members key (.object ((k, v) :: fs)) = members key (.object fs) := by
  simp [members, h]

variable {α : Type} [Readable α]

lemma members_eq_nil (h : key ∉ fs.map Prod.fst) : members key (.object fs) = [] := by
  rw [members, List.map_eq_nil_iff, List.filter_eq_nil_iff]
  rintro f hf hkey
  exact h (List.mem_map.mpr ⟨f, hf, of_decide_eq_true hkey⟩)

/-- A field is found where its key stands, if the key does not come again. -/
@[simp] lemma field?_cons_self (h : key ∉ fs.map Prod.fst) :
    ((object ((key, v) :: fs)).field? key : Option α) = read? v := by
  simp [field?, member?, members_eq_nil h]

@[simp] lemma field?_cons_of_ne (h : k ≠ key) :
    ((object ((k, v) :: fs)).field? key : Option α) = (object fs).field? key := by
  simp [field?, member?, h]

end

/-- A number that a word holds. -/
def word? {α : Type} (ofNat : ℕ → α) (toNat : α → ℕ) : Json → Option α
  | .int (.ofNat n) => if toNat (ofNat n) = n then some (ofNat n) else none
  | _ => none

/-- One of several things that have names. -/
def named? {α : Type} (all : List α) (name : α → String) : Json → Option α
  | .string s => all.find? (name · = s)
  | _ => none

lemma word?_nat {α : Type} {ofNat : ℕ → α} {toNat : α → ℕ} (h : ∀ x, ofNat (toNat x) = x) (x : α) :
    word? ofNat toNat (.nat (toNat x)) = some x := by
  show (if toNat (ofNat (toNat x)) = toNat x then some (ofNat (toNat x)) else none) = some x
  rw [h, if_pos rfl]

end Json

instance : Readable UInt8 := ⟨Json.word? UInt8.ofNat UInt8.toNat⟩
instance : Readable UInt16 := ⟨Json.word? UInt16.ofNat UInt16.toNat⟩
instance : Readable UInt32 := ⟨Json.word? UInt32.ofNat UInt32.toNat⟩
instance : Readable UInt64 := ⟨Json.word? UInt64.ofNat UInt64.toNat⟩

instance : Readable Int64 where
  read?
    | .int n => if (Int64.ofInt n).toInt = n then some (Int64.ofInt n) else none
    | _ => none

instance : Readable Bool where
  read?
    | .bool b => some b
    | _ => none

instance : Readable String where
  read?
    | .string s => some s
    | _ => none

instance : Readable (Option String) where
  read?
    | .null => some none
    | .string s => some (some s)
    | _ => none

instance : Readable Bytes where
  read?
    | .array xs => xs.mapM read?
    | _ => none

instance : Readable Identifier where
  read?
    | .string s => Identifier.ofText? s
    | _ => none

instance : Readable RelationKind := ⟨Json.named? RelationKind.all RelationKind.name⟩

instance : Readable InodeKind :=
  ⟨Json.named? [.unknown, .link, .file, .directory, .char, .block, .pipe, .socket] InodeKind.name⟩

instance : Readable DisclosedKind :=
  ⟨Json.named? [.entity, .activity, .agent] DisclosedKind.name⟩

@[simp] lemma read?_u8 (x : UInt8) : read? (Json.nat x.toNat) = some x :=
  Json.word?_nat (fun _ => UInt8.ofNat_toNat) x

@[simp] lemma read?_u16 (x : UInt16) : read? (Json.nat x.toNat) = some x :=
  Json.word?_nat (fun _ => UInt16.ofNat_toNat) x

@[simp] lemma read?_u32 (x : UInt32) : read? (Json.nat x.toNat) = some x :=
  Json.word?_nat (fun _ => UInt32.ofNat_toNat) x

@[simp] lemma read?_u64 (x : UInt64) : read? (Json.nat x.toNat) = some x :=
  Json.word?_nat (fun _ => UInt64.ofNat_toNat) x

@[simp] lemma read?_i64 (x : Int64) : read? (Json.int x.toInt) = some x := by
  show (if (Int64.ofInt x.toInt).toInt = x.toInt then some (Int64.ofInt x.toInt) else none) = some x
  rw [Int64.ofInt_toInt, if_pos rfl]

@[simp] lemma read?_bool (b : Bool) : read? (Json.bool b) = some b := rfl

@[simp] lemma read?_string (s : String) : read? (Json.string s) = some s := rfl

@[simp] lemma read?_ofString? (s : Option String) : read? (Json.ofString? s) = some s := by
  cases s <;> rfl

@[simp] lemma read?_bytes (bs : Bytes) : read? bs.json = some bs := by
  show (bs.map fun b => Json.nat b.toNat).mapM read? = some bs
  induction bs with
  | nil => rfl
  | cons b bs ih => simp [ih]

@[simp] lemma read?_identifier (i : Identifier) : read? i.json = some i.unreserved :=
  i.ofText?_text

@[simp] lemma read?_relationKind (k : RelationKind) : read? (Json.string k.name) = some k := by
  cases k <;> rfl

@[simp] lemma read?_inodeKind (k : InodeKind) : read? (Json.string k.name) = some k := by
  cases k <;> rfl

@[simp] lemma read?_disclosedKind (k : DisclosedKind) : read? (Json.string k.name) = some k := by
  cases k <;> rfl

/-! ### Records -/

open Json (field?)

def Header.read? (j : Json) : Option Header := do
  return {
    identifier := ← j.field? "identifier"
    flags := ← j.field? "flags"
    epoch := ← j.field? "epoch" }

instance : Readable Header := ⟨Header.read?⟩

/-- The header with zeros for the reserved bytes of its identifier. -/
def Header.unreserved (h : Header) : Header := { h with identifier := h.identifier.unreserved }

@[simp] lemma read?_header (h : Header) : read? h.json = some h.unreserved := by
  show Header.read? h.json = _
  simp [Header.read?, Header.json, Header.unreserved]

def Relation.read? (j : Json) : Option Relation := do
  return {
    header := ← j.field? "header"
    kind := ← j.field? "kind"
    sender := ← j.field? "sender"
    receiver := ← j.field? "receiver"
    allowed := ← j.field? "allowed"
    set := ← j.field? "set"
    offset := ← j.field? "offset"
    flags := ← j.field? "flags"
    taskId := ← j.field? "task_id" }

@[simp] lemma Relation.read?_fields (r : Relation) :
    Relation.read? (.object r.fields) = some { r with
      header := r.header.unreserved
      sender := r.sender.unreserved
      receiver := r.receiver.unreserved } := by
  simp [Relation.read?, Relation.fields]

def Process.read? (j : Json) : Option Process := do
  return {
    header := ← j.field? "header"
    uid := ← j.field? "uid"
    gid := ← j.field? "gid"
    tgid := ← j.field? "tgid"
    utsns := ← j.field? "utsns"
    ipcns := ← j.field? "ipcns"
    mntns := ← j.field? "mntns"
    pidns := ← j.field? "pidns"
    netns := ← j.field? "netns"
    cgroupns := ← j.field? "cgroupns"
    secid := ← j.field? "secid" }

@[simp] lemma Process.read?_fields (n : Process) :
    Process.read? (.object n.fields) = some { n with header := n.header.unreserved } := by
  simp [Process.read?, Process.fields]

def TaskNode.read? (j : Json) : Option TaskNode := do
  return {
    header := ← j.field? "header"
    pid := ← j.field? "pid"
    vpid := ← j.field? "vpid"
    utime := ← j.field? "utime"
    stime := ← j.field? "stime"
    vm := ← j.field? "vm"
    rss := ← j.field? "rss"
    hwVm := ← j.field? "hw_vm"
    hwRss := ← j.field? "hw_rss"
    rbytes := ← j.field? "rbytes"
    wbytes := ← j.field? "wbytes"
    cancelWbytes := ← j.field? "cancel_wbytes" }

@[simp] lemma TaskNode.read?_fields (n : TaskNode) :
    TaskNode.read? (.object n.fields) = some { n with header := n.header.unreserved } := by
  simp [TaskNode.read?, TaskNode.fields]

def Inode.read? (j : Json) : Option Inode := do
  return {
    header := ← j.field? "header"
    kind := ← j.field? "kind"
    uid := ← j.field? "uid"
    gid := ← j.field? "gid"
    mode := ← j.field? "mode"
    secid := ← j.field? "secid"
    ino := ← j.field? "ino"
    dev := ← j.field? "dev" }

@[simp] lemma Inode.read?_fields (n : Inode) :
    Inode.read? (.object n.fields) = some { n with header := n.header.unreserved } := by
  simp [Inode.read?, Inode.fields]

def Message.read? (j : Json) : Option Message := do
  return {
    header := ← j.field? "header"
    msgType := ← j.field? "msg_type"
    secid := ← j.field? "secid" }

@[simp] lemma Message.read?_fields (n : Message) :
    Message.read? (.object n.fields) = some { n with header := n.header.unreserved } := by
  simp [Message.read?, Message.fields]

def SharedMemory.read? (j : Json) : Option SharedMemory := do
  return {
    header := ← j.field? "header"
    mode := ← j.field? "mode"
    secid := ← j.field? "secid" }

@[simp] lemma SharedMemory.read?_fields (n : SharedMemory) :
    SharedMemory.read? (.object n.fields) = some { n with header := n.header.unreserved } := by
  simp [SharedMemory.read?, SharedMemory.fields]

def Packet.read? (j : Json) : Option Packet := do
  return {
    header := ← j.field? "header"
    sender := ← Net.Ipv4.ofText? (← j.field? "sender")
    receiver := ← Net.Ipv4.ofText? (← j.field? "receiver")
    sport := ← j.field? "sport"
    dport := ← j.field? "dport"
    protocol := ← j.field? "protocol"
    iseq := ← j.field? "iseq"
    length := ← j.field? "length" }

@[simp] lemma Packet.read?_fields (n : Packet) :
    Packet.read? (.object n.fields) = some { n with header := n.header.unreserved } := by
  simp [Packet.read?, Packet.fields, Net.Ipv4.ofText?_text]

def InodeAttributes.read? (j : Json) : Option InodeAttributes := do
  return {
    header := ← j.field? "header"
    valid := ← j.field? "valid"
    mode := ← j.field? "mode"
    uid := ← j.field? "uid"
    gid := ← j.field? "gid"
    size := ← j.field? "size"
    atime := ← j.field? "atime"
    mtime := ← j.field? "mtime"
    ctime := ← j.field? "ctime" }

@[simp] lemma InodeAttributes.read?_fields (n : InodeAttributes) :
    InodeAttributes.read? (.object n.fields) = some { n with header := n.header.unreserved } := by
  simp [InodeAttributes.read?, InodeAttributes.fields]

def StringEntry.read? (j : Json) : Option StringEntry := do
  return {
    header := ← j.field? "header"
    value := ← j.field? "value" }

@[simp] lemma StringEntry.read?_fields (e : StringEntry) :
    StringEntry.read? (.object e.fields) = some { e with header := e.header.unreserved } := by
  simp [StringEntry.read?, StringEntry.fields]

def PathEntry.read? (j : Json) : Option PathEntry := do
  return {
    header := ← j.field? "header"
    name := ← j.field? "name" }

@[simp] lemma PathEntry.read?_fields (e : PathEntry) :
    PathEntry.read? (.object e.fields) = some { e with header := e.header.unreserved } := by
  simp [PathEntry.read?, PathEntry.fields]

/-- All but the address. -/
def AddressEntry.read? (j : Json) : Option AddressEntry := do
  return {
    header := ← j.field? "header"
    family := ← j.field? "family"
    address := none }

@[simp] lemma AddressEntry.read?_fields (e : AddressEntry) :
    AddressEntry.read? (.object e.fields) =
      some { e with header := e.header.unreserved, address := none } := by
  simp [AddressEntry.read?, AddressEntry.fields]

def XattrEntry.read? (j : Json) : Option XattrEntry := do
  return {
    header := ← j.field? "header"
    name := ← j.field? "name"
    value := ← j.field? "value"
    flags := ← j.field? "flags" }

@[simp] lemma XattrEntry.read?_fields (e : XattrEntry) :
    XattrEntry.read? (.object e.fields) = some { e with header := e.header.unreserved } := by
  simp [XattrEntry.read?, XattrEntry.fields]

def DisclosedNode.read? (j : Json) : Option DisclosedNode := do
  return {
    header := ← j.field? "header"
    kind := ← j.field? "kind"
    parent := ← j.field? "parent"
    content := ← j.field? "content" }

@[simp] lemma DisclosedNode.read?_fields (n : DisclosedNode) :
    DisclosedNode.read? (.object n.fields) =
      some { n with header := n.header.unreserved, parent := n.parent.unreserved } := by
  simp [DisclosedNode.read?, DisclosedNode.fields]

def PacketContent.read? (j : Json) : Option PacketContent := do
  return {
    header := ← j.field? "header"
    content := ← j.field? "content"
    truncated := ← j.field? "truncated" }

@[simp] lemma PacketContent.read?_fields (e : PacketContent) :
    PacketContent.read? (.object e.fields) = some { e with header := e.header.unreserved } := by
  simp [PacketContent.read?, PacketContent.fields]

def Argument.read? (j : Json) : Option Argument := do
  return {
    header := ← j.field? "header"
    environment := ← j.field? "environment"
    value := ← j.field? "value"
    truncated := ← j.field? "truncated" }

@[simp] lemma Argument.read?_fields (e : Argument) :
    Argument.read? (.object e.fields) = some { e with header := e.header.unreserved } := by
  simp [Argument.read?, Argument.fields]

def version? : Bytes → Option (UInt8 × UInt8 × UInt8)
  | [major, minor, patch] => some (major, minor, patch)
  | _ => none

def Machine.read? (j : Json) : Option Machine := do
  return {
    header := ← j.field? "header"
    sysname := ← j.field? "sysname"
    nodename := ← j.field? "nodename"
    release := ← j.field? "release"
    version := ← j.field? "version"
    machine := ← j.field? "machine"
    tracerVersion := ← version? (← j.field? "tracer_version")
    commit := ← j.field? "commit" }

@[simp] lemma Machine.read?_fields (m : Machine) :
    Machine.read? (.object m.fields) = some { m with header := m.header.unreserved } := by
  simp [Machine.read?, Machine.fields, version?]

/-! ### All records -/

namespace Payload

def read? (j : Json) : Kind → Option Payload
  | .used | .informed | .generated | .derived | .influenced | .associated =>
    (Relation.read? j).map (short ∘ .relation)
  | .process => (Process.read? j).map (short ∘ .process)
  | .task => (TaskNode.read? j).map (short ∘ .task)
  | .inode => (Inode.read? j).map (short ∘ .inode)
  | .message => (Message.read? j).map (short ∘ .message)
  | .shm => (SharedMemory.read? j).map (short ∘ .sharedMemory)
  | .packet => (Packet.read? j).map (short ∘ .packet)
  | .iattr => (InodeAttributes.read? j).map (short ∘ .inodeAttributes)
  | .string => (StringEntry.read? j).map (long ∘ .string)
  | .path => (PathEntry.read? j).map (long ∘ .path)
  | .address => (AddressEntry.read? j).map (long ∘ .address)
  | .xattr => (XattrEntry.read? j).map (long ∘ .xattr)
  | .entityDisc | .activityDisc | .agentDisc => (DisclosedNode.read? j).map (long ∘ .disclosed)
  | .packetContent => (PacketContent.read? j).map (long ∘ .packetContent)
  | .argument => (Argument.read? j).map (long ∘ .argument)
  | .machine => (Machine.read? j).map (long ∘ .machine)

/-- The record as its document tells it: with zeros for the reserved bytes of identifiers, and
without the address of a socket. -/
def told : Payload → Payload
  | short (.relation r) =>
    short (.relation { r with
      header := r.header.unreserved
      sender := r.sender.unreserved
      receiver := r.receiver.unreserved })
  | short (.process n) => short (.process { n with header := n.header.unreserved })
  | short (.task n) => short (.task { n with header := n.header.unreserved })
  | short (.inode n) => short (.inode { n with header := n.header.unreserved })
  | short (.message n) => short (.message { n with header := n.header.unreserved })
  | short (.sharedMemory n) => short (.sharedMemory { n with header := n.header.unreserved })
  | short (.packet n) => short (.packet { n with header := n.header.unreserved })
  | short (.inodeAttributes n) =>
    short (.inodeAttributes { n with header := n.header.unreserved })
  | long (.string e) => long (.string { e with header := e.header.unreserved })
  | long (.path e) => long (.path { e with header := e.header.unreserved })
  | long (.address e) =>
    long (.address { e with header := e.header.unreserved, address := none })
  | long (.xattr e) => long (.xattr { e with header := e.header.unreserved })
  | long (.disclosed n) =>
    long (.disclosed { n with header := n.header.unreserved, parent := n.parent.unreserved })
  | long (.packetContent e) => long (.packetContent { e with header := e.header.unreserved })
  | long (.argument e) => long (.argument { e with header := e.header.unreserved })
  | long (.machine m) => long (.machine { m with header := m.header.unreserved })

/-- The text of the address of a socket, if the record has one. -/
def addressText : Payload → Option String
  | long (.address e) => e.address.map (·.text)
  | _ => none

/-- **A record is read from its document**, given its kind. -/
lemma read?_json (p : Payload) : read? p.json p.kind = some p.told := by
  rcases p with p | p
  · cases p with
    | relation r =>
      obtain ⟨header, k, sender, receiver, allowed, set, offset, flags, taskId⟩ := r
      cases k <;> simp [read?, json, fields, ShortPayload.fields, kind, RelationKind.kind, told]
    | _ => simp [read?, json, fields, ShortPayload.fields, kind, told]
  · cases p with
    | disclosed n =>
      obtain ⟨header, k, parent, content⟩ := n
      cases k <;> simp [read?, json, fields, LongPayload.fields, kind, told]
    | _ => simp [read?, json, fields, LongPayload.fields, kind, told]

end Payload

lemma field?_address (e : AddressEntry) :
    (Payload.long (.address e)).json.field? "address" = some (e.address.map (·.text)) := by
  simp [Payload.json, Payload.fields, LongPayload.fields, AddressEntry.fields]

end ProvenanceRelay
