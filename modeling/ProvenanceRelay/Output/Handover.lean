import ProvenanceRelay.Output.JsonLines

/-!
How a record is handed over, step by step.

Other threads go on between the steps. What the ends of a relation are called is looked up one end
after the other, before the output is waited for. Whoever has the output to itself writes the line
part by part, ends it and gives the output back; only then is the record counted.
-/

namespace ProvenanceRelay.Output

/-- What a line tells: a record, and what the ends of a relation are called. -/
structure Line where
  payload : Payload
  sender : Option String := none
  receiver : Option String := none

def Line.json (l : Line) : Json :=
  .object (("kind", .string l.payload.kind.name) ::
    (endName "sender_name" l.sender ++ endName "receiver_name" l.receiver ++
      [("record", l.payload.json)]))

/-- How far the handing over of a record has come. -/
inductive Handover where
  /-- About to look up the sender of a relation. -/
  | sender (r : Relation)
  /-- About to look up the receiver, after the sender. -/
  | receiver (r : Relation) (name : Option String)
  /-- Waiting for the output. -/
  | waiting (l : Line)
  /-- Has the output, and these parts of the line are left to be written. -/
  | writing (l : Line) (left : List String)
  /-- Has given the output back. -/
  | counting (l : Line) (written : Bool)

/-- The output that readers share, and which of them has it to itself. -/
structure Desk where
  state : JsonLines
  holder : Option Nat := none

namespace Handover

/-- Names are looked up for relations only. -/
def start (resolve : Bool) (p : Payload) : Handover :=
  match p with
  | .short (.relation r) => if resolve then .sender r else .waiting { payload := p }
  | _ => .waiting { payload := p }

/-- Reader `i` goes on. Nothing is left of the handover once the record is counted. A part that
fails ends the line, and the output is given back. -/
def advance (names : NameTable) (i : Nat) (d : Desk) : Handover → Desk × Option Handover
  | .sender r => (d, some (.receiver r (names.lookup r.sender)))
  | .receiver r name =>
    (d, some (.waiting ⟨.short (.relation r), name, names.lookup r.receiver⟩))
  | .waiting l =>
    match d.holder with
    | none => ({ d with holder := some i }, some (.writing l l.json.pieces))
    | some _ => (d, some (.waiting l))
  | .writing l (t :: ts) =>
    match d.state.out.part t with
    | (out, true) => ({ d with state := { d.state with out } }, some (.writing l ts))
    | (out, false) => ({ state := { d.state with out } }, some (.counting l false))
  | .writing l [] =>
    let (out, ok) := d.state.out.newline
    ({ state := { d.state with out } }, some (.counting l ok))
  | .counting l written =>
    let metrics :=
      if written then d.state.metrics.write l.payload.kind else d.state.metrics.fail
    ({ d with state := { d.state with metrics } }, none)

/-- The line that is ended when the reader goes on. -/
def ended? (d : Desk) : Handover → Option Line
  | .writing l [] => if d.state.out.newline.2 then some l else none
  | _ => none

end Handover

end ProvenanceRelay.Output
