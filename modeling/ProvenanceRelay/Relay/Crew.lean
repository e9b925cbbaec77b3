import ProvenanceRelay.Output.Handover
import ProvenanceRelay.Relay

/-!
A relay whose readers share one output.

A reader that hands over a record does so in steps of its own, and the other threads go on in
between. It does not go on with its channel before the record is handed over.
-/

namespace ProvenanceRelay

open Output

structure Crew where
  relay : Relay JsonLines
  /-- Whether the ends of relations are called by their names. -/
  resolve : Bool
  /-- The handovers under way, by the readers' numbers. -/
  handovers : Nat → Option Handover := fun _ => none
  /-- Who has the output to itself. -/
  holder : Option Nat := none

namespace Crew

/-- The crew of a relay none of whose readers hands anything over yet. -/
def ofRelay (config : OutputConfig) (r : Relay JsonLines) : Crew where
  relay := r
  resolve := config.resolveNames

def out (c : Crew) : LineWriter := c.relay.dispatcher.state.out

def metrics (c : Crew) : Metrics := c.relay.dispatcher.state.metrics

def names (c : Crew) : NameTable := c.relay.dispatcher.names

inductive Event where
  | relay (e : Relay.Event)
  /-- A reader goes on with its handover. -/
  | handover (i : Nat)

/-- A reader whose record is on the way does not go on otherwise. -/
def isBusy (c : Crew) : Relay.Event → Bool
  | .reader w _ =>
    match c.relay.readerOf? w with
    | some (i, _) => (c.handovers i).isSome
    | none => false
  | _ => false

/-- The reader that comes to hand over a record, and the record. -/
def handed? (c : Crew) : Relay.Event → Option (Nat × Payload)
  | .reader w n =>
    match c.relay.readerOf? w with
    | some (i, x) =>
      match (x.step c.relay.dispatcher.handler.policy (c.relay.see n)).2 with
      | some (.act (.call (.handle p))) => some (i, p)
      | _ => none
    | none => none
  | _ => none

def place (c : Crew) (i : Nat) (h : Option Handover) : Crew :=
  { c with handovers := fun j => if j = i then h else c.handovers j }

/-- A record that is to be handed over has come no further than that. -/
def stepRelay (c : Crew) (e : Relay.Event) : Crew :=
  if c.isBusy e then c
  else
    match c.handed? e with
    | some (i, p) =>
      { c with relay := { c.relay.step e with dispatcher := c.relay.dispatcher } }.place i
        (some (.start c.resolve p))
    | none => { c with relay := c.relay.step e }

def desk (c : Crew) : Desk := ⟨c.relay.dispatcher.state, c.holder⟩

def setDesk (c : Crew) (d : Desk) : Crew :=
  { c with
    relay := { c.relay with dispatcher := { c.relay.dispatcher with state := d.state } }
    holder := d.holder }

/-- A reader that hands nothing over has nothing to go on with. -/
def stepHandover (c : Crew) (i : Nat) : Crew :=
  match c.handovers i with
  | none => c
  | some h =>
    let (d, h) := h.advance c.names i c.desk
    (c.setDesk d).place i h

def step (c : Crew) : Event → Crew
  | .relay e => c.stepRelay e
  | .handover i => c.stepHandover i

def run (c : Crew) (es : List Event) : Crew := es.foldl step c

@[simp] theorem run_nil (c : Crew) : c.run [] = c := rfl

@[simp] theorem run_cons (c : Crew) (e : Event) (es : List Event) :
    c.run (e :: es) = (c.step e).run es := rfl

theorem run_append (c : Crew) (es fs : List Event) : c.run (es ++ fs) = (c.run es).run fs := by
  simp [run, List.foldl_append]

/-- The line that a step ends, and by whom. -/
def ended? (c : Crew) : Event → Option (Nat × Line)
  | .relay _ => none
  | .handover i =>
    match c.handovers i with
    | some h => (h.ended? c.desk).map fun l => (i, l)
    | none => none

def lines (c : Crew) : List Event → List (Nat × Line)
  | [] => []
  | e :: es => (c.ended? e).toList ++ lines (c.step e) es

end Crew

end ProvenanceRelay
