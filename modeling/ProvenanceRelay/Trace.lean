import ProvenanceRelay.Dispatch

/-!
A handler that writes down every call it gets, and one that ignores them.
-/

namespace ProvenanceRelay

/-- Which records a trace drops, and what else sets it apart. -/
structure TraceConfig where
  query : Bool := false
  drop : List String := []
  dropUnknown : Bool := false

namespace Trace

def payloadText : Payload → String
  | .short (.relation r) => "on_" ++ r.kind.name ++ " " ++ r.header.identifier.text
  | .short (.task n) =>
    "on_task " ++ n.header.identifier.text ++ " pid " ++ Text.Numeral.decimal n.pid.toNat
  | .short (.process n) => "on_process " ++ n.header.identifier.text
  | .short (.inode n) => "on_inode " ++ n.header.identifier.text
  | .short (.message n) => "on_message " ++ n.header.identifier.text
  | .short (.sharedMemory n) => "on_shm " ++ n.header.identifier.text
  | .short (.packet n) => "on_packet " ++ n.header.identifier.text
  | .short (.inodeAttributes n) => "on_iattr " ++ n.header.identifier.text
  | .long (.string e) => "on_string " ++ e.header.identifier.text
  | .long (.path e) => "on_file_name " ++ e.header.identifier.text ++ " " ++ e.name
  | .long (.address e) => "on_address " ++ e.header.identifier.text
  | .long (.xattr e) => "on_xattr " ++ e.header.identifier.text
  | .long (.disclosed n) => "on_disclosed_" ++ n.kind.name ++ " " ++ n.header.identifier.text
  | .long (.packetContent e) => "on_packet_content " ++ e.header.identifier.text
  | .long (.argument e) => "on_argument " ++ e.header.identifier.text
  | .long (.machine m) => "on_machine " ++ m.header.identifier.text

def callText : Call → String
  | .init => "init"
  | .observe (.short r) =>
    "received_prov " ++ r.identifier.text ++ (if r.tag.isRelation then " true" else " false")
  | .observe (.long r) => "received_long_prov " ++ r.identifier.text
  | .filter r =>
    " ".intercalate ["filter", Text.Numeral.hex r.tag.toNat, r.identifier.text,
      r.kindName?.getD "?"]
  | .report message => "log_error " ++ message
  | .handle p => payloadText p

def policy (config : TraceConfig) : Policy where
  query := config.query
  drops r :=
    match r.kind? with
    | some k => k.name ∈ config.drop
    | none => config.dropUnknown

/-- Keeps the texts of the calls, the latest first. -/
def handler (config : TraceConfig) : Handler (List String) where
  policy := policy config
  respond _ c s := callText c :: s

end Trace

/-- A handler that keeps every record and does nothing. -/
def Handler.ignore : Handler Unit where
  policy := { query := false, drops := fun _ => false }
  respond _ _ s := s

end ProvenanceRelay
