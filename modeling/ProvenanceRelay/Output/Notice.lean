import ProvenanceRelay.Output.JsonLines

/-!
The methods through which a handler gets decoded records.

A decoded record goes to the one method for its type. A method that writes lines has a name of its
own for them, but for those of relations and disclosed nodes, which ask what they are handed.
-/

namespace ProvenanceRelay

/-- A call of a method, with what it is handed. -/
inductive Notice where
  | used (r : Relation)
  | informed (r : Relation)
  | generated (r : Relation)
  | derived (r : Relation)
  | influenced (r : Relation)
  | associated (r : Relation)
  | process (n : Process)
  | task (n : TaskNode)
  | inode (n : Inode)
  | message (n : Message)
  | sharedMemory (n : SharedMemory)
  | packet (n : Packet)
  | inodeAttributes (n : InodeAttributes)
  | string (e : StringEntry)
  | fileName (e : PathEntry)
  | address (e : AddressEntry)
  | xattr (e : XattrEntry)
  | disclosedEntity (n : DisclosedNode)
  | disclosedActivity (n : DisclosedNode)
  | disclosedAgent (n : DisclosedNode)
  | packetContent (e : PacketContent)
  | argument (e : Argument)
  | machine (m : Machine)

namespace Notice

/-- The method that a decoded record goes to. -/
def of : Payload → Notice
  | .short (.relation r) =>
    match r.kind with
    | .used => used r
    | .informed => informed r
    | .generated => generated r
    | .derived => derived r
    | .influenced => influenced r
    | .associated => associated r
  | .short (.process n) => process n
  | .short (.task n) => task n
  | .short (.inode n) => inode n
  | .short (.message n) => message n
  | .short (.sharedMemory n) => sharedMemory n
  | .short (.packet n) => packet n
  | .short (.inodeAttributes n) => inodeAttributes n
  | .long (.string e) => string e
  | .long (.path e) => fileName e
  | .long (.address e) => address e
  | .long (.xattr e) => xattr e
  | .long (.disclosed n) =>
    match n.kind with
    | .entity => disclosedEntity n
    | .activity => disclosedActivity n
    | .agent => disclosedAgent n
  | .long (.packetContent e) => packetContent e
  | .long (.argument e) => argument e
  | .long (.machine m) => machine m

def payload : Notice → Payload
  | used r | informed r | generated r | derived r | influenced r | associated r =>
    .short (.relation r)
  | process n => .short (.process n)
  | task n => .short (.task n)
  | inode n => .short (.inode n)
  | message n => .short (.message n)
  | sharedMemory n => .short (.sharedMemory n)
  | packet n => .short (.packet n)
  | inodeAttributes n => .short (.inodeAttributes n)
  | string e => .long (.string e)
  | fileName e => .long (.path e)
  | address e => .long (.address e)
  | xattr e => .long (.xattr e)
  | disclosedEntity n | disclosedActivity n | disclosedAgent n => .long (.disclosed n)
  | packetContent e => .long (.packetContent e)
  | argument e => .long (.argument e)
  | machine m => .long (.machine m)

end Notice

/-- The name on the lines of a disclosed node. -/
def DisclosedKind.label : DisclosedKind → String
  | entity => "entity_disc"
  | activity => "activity_disc"
  | agent => "agent_disc"

def Notice.label : Notice → String
  | used r | informed r | generated r | derived r | influenced r | associated r => r.kind.name
  | process _ => "process"
  | task _ => "task"
  | inode _ => "inode"
  | message _ => "message"
  | sharedMemory _ => "shm"
  | packet _ => "packet"
  | inodeAttributes _ => "iattr"
  | string _ => "string"
  | fileName _ => "path"
  | address _ => "address"
  | xattr _ => "xattr"
  | disclosedEntity n | disclosedActivity n | disclosedAgent n => n.kind.label
  | packetContent _ => "packet_content"
  | argument _ => "argument"
  | machine _ => "machine"

/-- The method that a call comes to, if it hands over a decoded record. -/
def Call.notice? : Call → Option Notice
  | .handle p => some (.of p)
  | _ => none

/-- The names under which records can be suppressed. -/
def Kind.names : List String :=
  ["used", "informed", "generated", "derived", "influenced", "associated", "process", "task",
    "inode", "message", "shm", "packet", "iattr", "string", "path", "address", "xattr",
    "entity_disc", "activity_disc", "agent_disc", "packet_content", "argument", "machine"]

end ProvenanceRelay
