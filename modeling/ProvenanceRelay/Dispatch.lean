import ProvenanceRelay.NameTable
import ProvenanceRelay.Record.Document
import ProvenanceRelay.Stats

/-!
What becomes of one slice of a channel.

`acts` lists in order what is counted, what is bound and which calls a handler gets. A slice of
the wrong size is a fault. A record is observed; in query mode that is all. Otherwise the filter
is asked, and a record that it keeps is decoded and handled, or reported if it cannot be decoded.
The name of a path is bound before the path is handled.
-/

namespace ProvenanceRelay

inductive AnyRecord where
  | short (r : Record .short)
  | long (r : Record .long)

namespace AnyRecord

def identifier : AnyRecord → Identifier
  | short r => r.identifier
  | long r => r.identifier

def tag : AnyRecord → Tag
  | short r => r.tag
  | long r => r.tag

/-- The kind as which the record is handled, unless its tag is unknown. -/
def kind? : AnyRecord → Option Kind
  | short r => (Record.classifyShort r.tag).toOption.map (·.kind)
  | long r => (Record.classifyLong r.tag).toOption.map (·.kind)

/-- The name that the classification of the record gives. -/
def kindName? : AnyRecord → Option String
  | short r => (Record.classifyShort r.tag).toOption.map (·.name)
  | long r => (Record.classifyLong r.tag).toOption.map (·.name)

def decode : AnyRecord → Except DecodeError Payload
  | short r => .short <$> r.decodeShort
  | long r => .long <$> r.decodeLong

def parse (shape : Shape) (bs : Bytes) : Except DecodeError AnyRecord :=
  match shape with
  | .short => short <$> Record.parse .short bs
  | .long => long <$> Record.parse .long bs

end AnyRecord

inductive Call where
  /-- A reader has started. -/
  | init
  | observe (r : AnyRecord)
  /-- The filter is asked about a record. -/
  | filter (r : AnyRecord)
  | report (message : String)
  | handle (p : Payload)

inductive Act where
  | count (c : Counter)
  | bind (i : Identifier) (name : String)
  | call (c : Call)

/-- How a handler steers the dispatch: whether it only observes, and which records it drops. -/
structure Policy where
  query : Bool
  drops : AnyRecord → Bool

namespace Dispatch

def recordCounter : Shape → Counter
  | .short => .shortRecords
  | .long => .longRecords

def refuse (e : DecodeError) : List Act :=
  [.count .decodeErrors, .call (.report e.message)]

def binding? : Payload → Option (Identifier × String)
  | .long (.path e) => some (e.header.identifier, e.name)
  | _ => none

def route (p : Payload) : List Act :=
  match binding? p with
  | some (i, name) => [.bind i name, .call (.handle p)]
  | none => [.call (.handle p)]

def acts (policy : Policy) (shape : Shape) (bs : Bytes) : List Act :=
  match AnyRecord.parse shape bs with
  | .error e => refuse e
  | .ok r =>
    .count (recordCounter shape) :: .call (.observe r) ::
      if policy.query then []
      else .call (.filter r) ::
        if policy.drops r then [.count .filtered]
        else
          match r.decode with
          | .error e => refuse e
          | .ok p => route p

end Dispatch

/-- A handler: its policy, and how its state answers a call while the names are known. -/
structure Handler (σ : Type) where
  policy : Policy
  respond : NameTable → Call → σ → σ

/-- A handler at work, with the names and the counters that all readers share. -/
structure Dispatcher (σ : Type) where
  handler : Handler σ
  names : NameTable := .empty
  stats : Stats := {}
  state : σ

namespace Dispatcher

variable {σ : Type}

def perform (d : Dispatcher σ) : Act → Dispatcher σ
  | .count c => { d with stats := d.stats.count c }
  | .bind i name => { d with names := d.names.insert i name }
  | .call c => { d with state := d.handler.respond d.names c d.state }

def run (d : Dispatcher σ) (as : List Act) : Dispatcher σ := as.foldl perform d

@[simp] theorem run_nil (d : Dispatcher σ) : d.run [] = d := rfl

@[simp] theorem run_cons (d : Dispatcher σ) (a : Act) (as : List Act) :
    d.run (a :: as) = (d.perform a).run as := rfl

theorem run_append (d : Dispatcher σ) (as bs : List Act) :
    d.run (as ++ bs) = (d.run as).run bs := by
  simp [run, List.foldl_append]

def dispatch (d : Dispatcher σ) (shape : Shape) (bs : Bytes) : Dispatcher σ :=
  d.run (Dispatch.acts d.handler.policy shape bs)

def report (d : Dispatcher σ) (message : String) : Dispatcher σ :=
  d.perform (.call (.report message))

@[simp] theorem handler_perform (d : Dispatcher σ) (a : Act) :
    (d.perform a).handler = d.handler := by
  cases a <;> rfl

@[simp] theorem handler_run (d : Dispatcher σ) (as : List Act) :
    (d.run as).handler = d.handler := by
  induction as generalizing d with
  | nil => rfl
  | cons a as ih => simp [ih]

end Dispatcher

end ProvenanceRelay
