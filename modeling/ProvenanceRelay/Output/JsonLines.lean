import ProvenanceRelay.Dispatch
import ProvenanceRelay.Metrics
import ProvenanceRelay.Output.LineWriter

/-!
Records as lines of JSON.

Each handled record becomes one line with its kind and its fields. A relation also tells the names
of its ends, as far as they are bound when it is handled.
-/

namespace ProvenanceRelay

namespace Payload

/-- The kind under which a decoded record is handled. -/
def kind : Payload → Kind
  | short (.relation r) => r.kind.kind
  | short (.process _) => .process
  | short (.task _) => .task
  | short (.inode _) => .inode
  | short (.message _) => .message
  | short (.sharedMemory _) => .shm
  | short (.packet _) => .packet
  | short (.inodeAttributes _) => .iattr
  | long (.string _) => .string
  | long (.path _) => .path
  | long (.address _) => .address
  | long (.xattr _) => .xattr
  | long (.disclosed n) =>
    match n.kind with
    | .entity => .entityDisc
    | .activity => .activityDisc
    | .agent => .agentDisc
  | long (.packetContent _) => .packetContent
  | long (.argument _) => .argument
  | long (.machine _) => .machine

end Payload

namespace Output

structure OutputConfig where
  file : Option String := none
  queryMode : Bool := false
  suppress : List String := []
  resolveNames : Bool := true
  deriving DecidableEq, Repr

def endName (key : String) : Option String → List (String × Json)
  | none => []
  | some name => [(key, .string name)]

/-- The names of a relation's ends that are bound. -/
def endNames (names : NameTable) : Payload → List (String × Json)
  | .short (.relation r) =>
    endName "sender_name" (names.lookup r.sender) ++
      endName "receiver_name" (names.lookup r.receiver)
  | _ => []

def lineJson (resolve : Bool) (names : NameTable) (p : Payload) : Json :=
  .object (("kind", .string p.kind.name) ::
    ((if resolve then endNames names p else []) ++ [("record", p.json)]))

structure JsonLines where
  out : LineWriter
  metrics : Metrics := {}

namespace JsonLines

def new (sink : Sink) : JsonLines := { out := { sink } }

def emit (s : JsonLines) (resolve : Bool) (names : NameTable) (p : Payload) : JsonLines :=
  match s.out.line (lineJson resolve names p).pieces with
  | (out, true) => { out, metrics := s.metrics.write p.kind }
  | (out, false) => { out, metrics := s.metrics.fail }

def suppresses (config : OutputConfig) (k : Kind) : Bool := k.name ∈ config.suppress

def policy (config : OutputConfig) : Policy where
  query := config.queryMode
  drops r := r.kind?.any (suppresses config)

/-- Counts a record that the filter drops. -/
def noteFilter (s : JsonLines) (config : OutputConfig) (r : AnyRecord) : JsonLines :=
  match r.kind? with
  | some k => if suppresses config k then { s with metrics := s.metrics.suppress k } else s
  | none => s

def respond (config : OutputConfig) (names : NameTable) : Call → JsonLines → JsonLines
  | .init, s => s
  | .observe _, s => { s with metrics := s.metrics.observe }
  | .filter r, s => s.noteFilter config r
  | .report _, s => { s with metrics := s.metrics.fail }
  | .handle p, s => s.emit config.resolveNames names p

def handler (config : OutputConfig) : Handler JsonLines where
  policy := policy config
  respond := respond config

def flush (s : JsonLines) : JsonLines × Bool :=
  let (out, ok) := s.out.flush
  ({ s with out }, ok)

end JsonLines

end Output

end ProvenanceRelay
