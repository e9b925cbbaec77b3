/-!
What a record is about, told by its 64-bit tag.

The top four bits of a tag name its domain. A relation carries one category bit besides, whatever
its other bits; a node has one tag of its own, on a short or on a long record but never on both.
-/

namespace ProvenanceRelay

/-- The names under which records are handled, counted and suppressed, in the order in which they
are listed. -/
inductive Kind where
  | used | informed | generated | derived | influenced | associated
  | process | task | inode | message | shm | packet | iattr
  | string | path | address | xattr | entityDisc | activityDisc | agentDisc
  | packetContent | argument | machine
  deriving DecidableEq, Repr

namespace Kind

def all : List Kind :=
  [used, informed, generated, derived, influenced, associated, process, task, inode, message, shm,
    packet, iattr, string, path, address, xattr, entityDisc, activityDisc, agentDisc,
    packetContent, argument, machine]

def name : Kind → String
  | used => "used"
  | informed => "informed"
  | generated => "generated"
  | derived => "derived"
  | influenced => "influenced"
  | associated => "associated"
  | process => "process"
  | task => "task"
  | inode => "inode"
  | message => "message"
  | shm => "shm"
  | packet => "packet"
  | iattr => "iattr"
  | string => "string"
  | path => "path"
  | address => "address"
  | xattr => "xattr"
  | entityDisc => "entity_disc"
  | activityDisc => "activity_disc"
  | agentDisc => "agent_disc"
  | packetContent => "packet_content"
  | argument => "argument"
  | machine => "machine"

theorem mem_all (k : Kind) : k ∈ all := by cases k <;> decide

def ofName? (s : String) : Option Kind := all.find? (·.name = s)

end Kind

/-! ### Domains and categories -/

abbrev Tag := UInt64

namespace Tag

def relation : Tag := 0x8000000000000000
def activity : Tag := 0x4000000000000000
def entity : Tag := 0x2000000000000000
def agent : Tag := 0x1000000000000000

def isRelation (t : Tag) : Bool := t &&& relation ≠ 0

end Tag

inductive RelationKind where
  | used | informed | generated | derived | influenced | associated
  deriving DecidableEq, Repr

namespace RelationKind

def all : List RelationKind := [used, informed, generated, derived, influenced, associated]

def categoryBit : RelationKind → Tag
  | derived => 0x0800000000000000
  | generated => 0x0400000000000000
  | used => 0x0200000000000000
  | informed => 0x0100000000000000
  | influenced => 0x0080000000000000
  | associated => 0x0040000000000000

/-- The bits of all six categories. -/
def categories : Tag := all.foldl (fun t k => t ||| k.categoryBit) 0

def kind : RelationKind → Kind
  | used => .used
  | informed => .informed
  | generated => .generated
  | derived => .derived
  | influenced => .influenced
  | associated => .associated

def name : RelationKind → String
  | used => "used"
  | informed => "informed"
  | generated => "generated"
  | derived => "derived"
  | influenced => "influenced"
  | associated => "associated"

/-- The family of a relation: the one whose category bit is the only one set. -/
def ofTag? (t : Tag) : Option RelationKind :=
  if t.isRelation then all.find? fun k => t &&& categories = k.categoryBit else none

end RelationKind

/-! ### Nodes on short records -/

inductive InodeKind where
  | unknown | link | file | directory | char | block | pipe | socket
  deriving DecidableEq, Repr

def InodeKind.name : InodeKind → String
  | unknown => "unknown"
  | link => "link"
  | file => "file"
  | directory => "directory"
  | char => "char"
  | block => "block"
  | pipe => "pipe"
  | socket => "socket"

inductive NodeKind where
  | process
  | task
  | inode (kind : InodeKind)
  | message
  | sharedMemory
  | packet
  | inodeAttributes
  deriving DecidableEq, Repr

namespace NodeKind

def all : List NodeKind :=
  [process, task, inode .unknown, inode .link, inode .file, inode .directory, inode .char,
    inode .block, inode .pipe, inode .socket, message, sharedMemory, packet, inodeAttributes]

def tag : NodeKind → Tag
  | task => .activity ||| 0x1
  | process => .entity ||| 0x1
  | inode .unknown => .entity ||| 0x2
  | inode .link => .entity ||| 0x3
  | inode .file => .entity ||| 0x4
  | inode .directory => .entity ||| 0x5
  | inode .char => .entity ||| 0x6
  | inode .block => .entity ||| 0x7
  | inode .pipe => .entity ||| 0x8
  | inode .socket => .entity ||| 0x9
  | message => .entity ||| 0xA
  | sharedMemory => .entity ||| 0xB
  | packet => .entity ||| 0xC
  | inodeAttributes => .entity ||| 0xD

/-- All inodes are handled under one name. -/
def kind : NodeKind → Kind
  | process => .process
  | task => .task
  | inode _ => .inode
  | message => .message
  | sharedMemory => .shm
  | packet => .packet
  | inodeAttributes => .iattr

def name : NodeKind → String
  | process => "process"
  | task => "task"
  | inode _ => "inode"
  | message => "message"
  | sharedMemory => "shm"
  | packet => "packet"
  | inodeAttributes => "iattr"

def ofTag? (t : Tag) : Option NodeKind := all.find? (·.tag = t)

end NodeKind

/-! ### Nodes on long records -/

inductive LongKind where
  | string
  | path
  | address
  | xattr
  | disclosedEntity
  | disclosedActivity
  | disclosedAgent
  | packetContent
  | argument
  | environment
  | machine
  deriving DecidableEq, Repr

namespace LongKind

def all : List LongKind :=
  [string, path, address, xattr, disclosedEntity, disclosedActivity, disclosedAgent,
    packetContent, argument, environment, machine]

def tag : LongKind → Tag
  | string => .entity ||| 0xE
  | path => .entity ||| 0xF
  | address => .entity ||| 0x10
  | xattr => .entity ||| 0x11
  | disclosedEntity => .entity ||| 0x12
  | packetContent => .entity ||| 0x13
  | argument => .entity ||| 0x14
  | environment => .entity ||| 0x15
  | disclosedActivity => .activity ||| 0x2
  | machine => .agent ||| 0x1
  | disclosedAgent => .agent ||| 0x2

/-- Arguments and environment strings are handled under one name. -/
def kind : LongKind → Kind
  | string => .string
  | path => .path
  | address => .address
  | xattr => .xattr
  | disclosedEntity => .entityDisc
  | disclosedActivity => .activityDisc
  | disclosedAgent => .agentDisc
  | packetContent => .packetContent
  | argument => .argument
  | environment => .argument
  | machine => .machine

def name : LongKind → String
  | string => "string"
  | path => "path"
  | address => "address"
  | xattr => "xattr"
  | disclosedEntity => "entity_disc"
  | disclosedActivity => "activity_disc"
  | disclosedAgent => "agent_disc"
  | packetContent => "packet_content"
  | argument | environment => "argument"
  | machine => "machine"

def ofTag? (t : Tag) : Option LongKind := all.find? (·.tag = t)

end LongKind

/-! ### Both shapes -/

inductive ShortKind where
  | relation (kind : RelationKind)
  | node (kind : NodeKind)
  deriving DecidableEq, Repr

namespace ShortKind

def kind : ShortKind → Kind
  | relation k => k.kind
  | node k => k.kind

def name : ShortKind → String
  | relation k => k.name
  | node k => k.name

end ShortKind

end ProvenanceRelay
