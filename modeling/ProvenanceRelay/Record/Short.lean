import ProvenanceRelay.Net.Address
import ProvenanceRelay.Record.Basic

/-!
Short records: relations between nodes, and the nodes that fit in 256 bytes.

Every field has its place in the record. Numbers are stored least significant byte first, except
in packets, which are in network order.
-/

namespace ProvenanceRelay

structure Relation where
  header : Header
  kind : RelationKind
  sender : Identifier
  receiver : Identifier
  allowed : Bool
  set : Bool
  offset : Int64
  flags : UInt64
  taskId : UInt64
  deriving DecidableEq

/-- The memory and the credentials of a process. -/
structure Process where
  header : Header
  uid : UInt32
  gid : UInt32
  tgid : UInt32
  utsns : UInt32
  ipcns : UInt32
  mntns : UInt32
  pidns : UInt32
  netns : UInt32
  cgroupns : UInt32
  secid : UInt32
  deriving DecidableEq

/-- A thread of execution and what it has consumed. -/
structure TaskNode where
  header : Header
  pid : UInt32
  vpid : UInt32
  utime : UInt64
  stime : UInt64
  vm : UInt64
  rss : UInt64
  hwVm : UInt64
  hwRss : UInt64
  rbytes : UInt64
  wbytes : UInt64
  cancelWbytes : UInt64
  deriving DecidableEq

/-- A file, a directory, a pipe or another inode. -/
structure Inode where
  header : Header
  kind : InodeKind
  uid : UInt32
  gid : UInt32
  mode : UInt16
  secid : UInt32
  ino : UInt64
  dev : UInt32
  deriving DecidableEq

structure Message where
  header : Header
  msgType : Int64
  secid : UInt32
  deriving DecidableEq

structure SharedMemory where
  header : Header
  mode : UInt16
  secid : UInt32
  deriving DecidableEq

structure Packet where
  header : Header
  sender : Net.Ipv4
  receiver : Net.Ipv4
  sport : UInt16
  dport : UInt16
  protocol : UInt8
  iseq : UInt32
  length : UInt16
  deriving DecidableEq

/-- A change of an inode's attributes. -/
structure InodeAttributes where
  header : Header
  valid : UInt32
  mode : UInt16
  uid : UInt32
  gid : UInt32
  size : Int64
  atime : Int64
  mtime : Int64
  ctime : Int64
  deriving DecidableEq

inductive ShortPayload where
  | relation (r : Relation)
  | process (n : Process)
  | task (n : TaskNode)
  | inode (n : Inode)
  | message (n : Message)
  | sharedMemory (n : SharedMemory)
  | packet (n : Packet)
  | inodeAttributes (n : InodeAttributes)
  deriving DecidableEq

namespace Record

variable (r : Record .short)

def relation (kind : RelationKind) : Relation where
  header := r.header
  kind
  sender := ⟨r.sub 64 32⟩
  receiver := ⟨r.sub 96 32⟩
  allowed := (r.sub 128 1).byte ≠ 0
  set := (r.sub 129 1).byte ≠ 0
  offset := (r.sub 136 8).i64
  flags := (r.sub 144 8).u64
  taskId := (r.sub 152 8).u64

def process : Process where
  header := r.header
  uid := (r.sub 64 4).u32
  gid := (r.sub 68 4).u32
  tgid := (r.sub 72 4).u32
  utsns := (r.sub 76 4).u32
  ipcns := (r.sub 80 4).u32
  mntns := (r.sub 84 4).u32
  pidns := (r.sub 88 4).u32
  netns := (r.sub 92 4).u32
  cgroupns := (r.sub 96 4).u32
  secid := (r.sub 100 4).u32

def task : TaskNode where
  header := r.header
  pid := (r.sub 64 4).u32
  vpid := (r.sub 68 4).u32
  utime := (r.sub 72 8).u64
  stime := (r.sub 80 8).u64
  vm := (r.sub 88 8).u64
  rss := (r.sub 96 8).u64
  hwVm := (r.sub 104 8).u64
  hwRss := (r.sub 112 8).u64
  rbytes := (r.sub 120 8).u64
  wbytes := (r.sub 128 8).u64
  cancelWbytes := (r.sub 136 8).u64

def inode (kind : InodeKind) : Inode where
  header := r.header
  kind
  uid := (r.sub 64 4).u32
  gid := (r.sub 68 4).u32
  mode := (r.sub 72 2).u16
  secid := (r.sub 76 4).u32
  ino := (r.sub 80 8).u64
  dev := (r.sub 88 4).u32

def message : Message where
  header := r.header
  msgType := (r.sub 64 8).i64
  secid := (r.sub 72 4).u32

def sharedMemory : SharedMemory where
  header := r.header
  mode := (r.sub 64 2).u16
  secid := (r.sub 68 4).u32

def packet : Packet where
  header := r.header
  sender := (r.sub 64 4).netU32
  receiver := (r.sub 68 4).netU32
  sport := (r.sub 72 2).netU16
  dport := (r.sub 74 2).netU16
  protocol := (r.sub 76 1).byte
  iseq := (r.sub 80 4).netU32
  length := (r.sub 84 2).netU16

def inodeAttributes : InodeAttributes where
  header := r.header
  valid := (r.sub 64 4).u32
  mode := (r.sub 68 2).u16
  uid := (r.sub 72 4).u32
  gid := (r.sub 76 4).u32
  size := (r.sub 80 8).i64
  atime := (r.sub 88 8).i64
  mtime := (r.sub 96 8).i64
  ctime := (r.sub 104 8).i64

def classifyShort (t : Tag) : Except DecodeError ShortKind :=
  if t.isRelation then
    match RelationKind.ofTag? t with
    | some k => .ok (.relation k)
    | none => .error (.unknownRelation t)
  else
    match NodeKind.ofTag? t with
    | some k => .ok (.node k)
    | none => .error (.unknownNode t)

def shortPayload : ShortKind → ShortPayload
  | .relation k => .relation (r.relation k)
  | .node .process => .process r.process
  | .node .task => .task r.task
  | .node (.inode k) => .inode (r.inode k)
  | .node .message => .message r.message
  | .node .sharedMemory => .sharedMemory r.sharedMemory
  | .node .packet => .packet r.packet
  | .node .inodeAttributes => .inodeAttributes r.inodeAttributes

def decodeShort : Except DecodeError ShortPayload := r.shortPayload <$> classifyShort r.tag

end Record

end ProvenanceRelay
