import ProvenanceRelay.Json
import ProvenanceRelay.Record.Long
import ProvenanceRelay.Record.Short

/-!
Decoded records as JSON objects.

The members stand in the order of the fields. Identifiers and addresses are written as their text,
contents as arrays of numbers.
-/

namespace ProvenanceRelay

def Identifier.json (i : Identifier) : Json := .string i.text

def Header.json (h : Header) : Json :=
  .object [("identifier", h.identifier.json), ("flags", .nat h.flags.toNat),
    ("epoch", .nat h.epoch.toNat)]

/-- The bytes as an array of numbers. -/
def Bytes.json (bs : Bytes) : Json := .array (bs.map fun b => .nat b.toNat)

def Relation.fields (r : Relation) : List (String × Json) :=
  [("header", r.header.json), ("kind", .string r.kind.name), ("sender", r.sender.json),
    ("receiver", r.receiver.json), ("allowed", .bool r.allowed), ("set", .bool r.set),
    ("offset", .int r.offset.toInt), ("flags", .nat r.flags.toNat),
    ("task_id", .nat r.taskId.toNat)]

def Process.fields (n : Process) : List (String × Json) :=
  [("header", n.header.json), ("uid", .nat n.uid.toNat), ("gid", .nat n.gid.toNat),
    ("tgid", .nat n.tgid.toNat), ("utsns", .nat n.utsns.toNat), ("ipcns", .nat n.ipcns.toNat),
    ("mntns", .nat n.mntns.toNat), ("pidns", .nat n.pidns.toNat), ("netns", .nat n.netns.toNat),
    ("cgroupns", .nat n.cgroupns.toNat), ("secid", .nat n.secid.toNat)]

def TaskNode.fields (n : TaskNode) : List (String × Json) :=
  [("header", n.header.json), ("pid", .nat n.pid.toNat), ("vpid", .nat n.vpid.toNat),
    ("utime", .nat n.utime.toNat), ("stime", .nat n.stime.toNat), ("vm", .nat n.vm.toNat),
    ("rss", .nat n.rss.toNat), ("hw_vm", .nat n.hwVm.toNat), ("hw_rss", .nat n.hwRss.toNat),
    ("rbytes", .nat n.rbytes.toNat), ("wbytes", .nat n.wbytes.toNat),
    ("cancel_wbytes", .nat n.cancelWbytes.toNat)]

def Inode.fields (n : Inode) : List (String × Json) :=
  [("header", n.header.json), ("kind", .string n.kind.name), ("uid", .nat n.uid.toNat),
    ("gid", .nat n.gid.toNat), ("mode", .nat n.mode.toNat), ("secid", .nat n.secid.toNat),
    ("ino", .nat n.ino.toNat), ("dev", .nat n.dev.toNat)]

def Message.fields (n : Message) : List (String × Json) :=
  [("header", n.header.json), ("msg_type", .int n.msgType.toInt), ("secid", .nat n.secid.toNat)]

def SharedMemory.fields (n : SharedMemory) : List (String × Json) :=
  [("header", n.header.json), ("mode", .nat n.mode.toNat), ("secid", .nat n.secid.toNat)]

def Packet.fields (n : Packet) : List (String × Json) :=
  [("header", n.header.json), ("sender", .string (Net.Ipv4.text n.sender)),
    ("receiver", .string (Net.Ipv4.text n.receiver)), ("sport", .nat n.sport.toNat),
    ("dport", .nat n.dport.toNat), ("protocol", .nat n.protocol.toNat),
    ("iseq", .nat n.iseq.toNat), ("length", .nat n.length.toNat)]

def InodeAttributes.fields (n : InodeAttributes) : List (String × Json) :=
  [("header", n.header.json), ("valid", .nat n.valid.toNat), ("mode", .nat n.mode.toNat),
    ("uid", .nat n.uid.toNat), ("gid", .nat n.gid.toNat), ("size", .int n.size.toInt),
    ("atime", .int n.atime.toInt), ("mtime", .int n.mtime.toInt), ("ctime", .int n.ctime.toInt)]

def StringEntry.fields (e : StringEntry) : List (String × Json) :=
  [("header", e.header.json), ("value", .string e.value)]

def PathEntry.fields (e : PathEntry) : List (String × Json) :=
  [("header", e.header.json), ("name", .string e.name)]

def AddressEntry.fields (e : AddressEntry) : List (String × Json) :=
  [("header", e.header.json), ("family", .nat e.family.toNat),
    ("address", .ofString? (e.address.map (·.text)))]

def XattrEntry.fields (e : XattrEntry) : List (String × Json) :=
  [("header", e.header.json), ("name", .string e.name), ("value", e.value.json),
    ("flags", .nat e.flags.toNat)]

def DisclosedNode.fields (n : DisclosedNode) : List (String × Json) :=
  [("header", n.header.json), ("kind", .string n.kind.name), ("parent", n.parent.json),
    ("content", .string n.content)]

def PacketContent.fields (e : PacketContent) : List (String × Json) :=
  [("header", e.header.json), ("content", e.content.json), ("truncated", .bool e.truncated)]

def Argument.fields (e : Argument) : List (String × Json) :=
  [("header", e.header.json), ("environment", .bool e.environment), ("value", .string e.value),
    ("truncated", .bool e.truncated)]

def Machine.fields (m : Machine) : List (String × Json) :=
  let (major, minor, patch) := m.tracerVersion
  [("header", m.header.json), ("sysname", .string m.sysname), ("nodename", .string m.nodename),
    ("release", .string m.release), ("version", .string m.version),
    ("machine", .string m.machine), ("tracer_version", Bytes.json [major, minor, patch]),
    ("commit", .string m.commit)]

namespace ShortPayload

def fields : ShortPayload → List (String × Json)
  | relation r => r.fields
  | process n => n.fields
  | task n => n.fields
  | inode n => n.fields
  | message n => n.fields
  | sharedMemory n => n.fields
  | packet n => n.fields
  | inodeAttributes n => n.fields

def typeName : ShortPayload → String
  | relation _ => "relation"
  | process _ => "process"
  | task _ => "task"
  | inode _ => "inode"
  | message _ => "message"
  | sharedMemory _ => "shm"
  | packet _ => "packet"
  | inodeAttributes _ => "iattr"

end ShortPayload

namespace LongPayload

def fields : LongPayload → List (String × Json)
  | string e => e.fields
  | path e => e.fields
  | address e => e.fields
  | xattr e => e.fields
  | disclosed n => n.fields
  | packetContent e => e.fields
  | argument e => e.fields
  | machine e => e.fields

def typeName : LongPayload → String
  | string _ => "string"
  | path _ => "path"
  | address _ => "address"
  | xattr _ => "xattr"
  | disclosed _ => "disclosed"
  | packetContent _ => "packet_content"
  | argument _ => "argument"
  | machine _ => "machine"

end LongPayload

inductive Payload where
  | short (p : ShortPayload)
  | long (p : LongPayload)
  deriving DecidableEq

namespace Payload

def fields : Payload → List (String × Json)
  | short p => p.fields
  | long p => p.fields

def typeName : Payload → String
  | short p => p.typeName
  | long p => p.typeName

def json (p : Payload) : Json := .object p.fields

/-- The record with its type in front. -/
def typedJson (p : Payload) : Json := .object (("type", .string p.typeName) :: p.fields)

end Payload

end ProvenanceRelay
