import Mathlib
import ProvenanceRelay.Proofs.KindTables

/-!
The outcome of a slice.

A slice has exactly one of five outcomes, whatever the handler answers. Each has its own calls to
the handler in their order, and its own counters. Only the outcome of a decoded path binds a name,
and the path is handled after that.
-/

namespace ProvenanceRelay

open Dispatch

/-- What becomes of a slice. -/
inductive Outcome where
  | missized (e : DecodeError)
  /-- The handler only observes. -/
  | observed (r : AnyRecord)
  | dropped (r : AnyRecord)
  | undecodable (r : AnyRecord) (e : DecodeError)
  | decoded (r : AnyRecord) (p : Payload)

namespace Outcome

def calls : Outcome → List Call
  | missized e => [.report e.message]
  | observed r => [.observe r]
  | dropped r => [.observe r, .filter r]
  | undecodable r e => [.observe r, .filter r, .report e.message]
  | decoded r p => [.observe r, .filter r, .handle p]

def counters (shape : Shape) : Outcome → List Counter
  | missized _ => [.decodeErrors]
  | observed _ => [recordCounter shape]
  | dropped _ => [recordCounter shape, .filtered]
  | undecodable _ _ => [recordCounter shape, .decodeErrors]
  | decoded _ _ => [recordCounter shape]

/-- When a slice has an outcome, for a handler with a policy. -/
inductive Befalls (policy : Policy) (shape : Shape) (bs : Bytes) : Outcome → Prop where
  | missized (size : bs.length ≠ shape.size) :
      Befalls policy shape bs (.missized (.wrongSize shape.size bs.length))
  | observed {r : AnyRecord} (parsed : AnyRecord.parse shape bs = .ok r)
      (query : policy.query = true) : Befalls policy shape bs (.observed r)
  | dropped {r : AnyRecord} (parsed : AnyRecord.parse shape bs = .ok r)
      (query : policy.query = false) (drops : policy.drops r = true) :
      Befalls policy shape bs (.dropped r)
  | undecodable {r : AnyRecord} {e : DecodeError} (parsed : AnyRecord.parse shape bs = .ok r)
      (query : policy.query = false) (drops : policy.drops r = false)
      (decode : r.decode = .error e) : Befalls policy shape bs (.undecodable r e)
  | decoded {r : AnyRecord} {p : Payload} (parsed : AnyRecord.parse shape bs = .ok r)
      (query : policy.query = false) (drops : policy.drops r = false)
      (decode : r.decode = .ok p) : Befalls policy shape bs (.decoded r p)

variable {policy : Policy} {shape : Shape} {bs : Bytes} {o o' : Outcome}

lemma Befalls.unique (h : o.Befalls policy shape bs) (h' : o'.Befalls policy shape bs) :
    o = o' := by
  cases h <;> cases h' <;> simp_all [AnyRecord.parse_of_size_ne]

def acts (shape : Shape) : Outcome → List Act
  | missized e => refuse e
  | observed r => [.count (recordCounter shape), .call (.observe r)]
  | dropped r =>
    [.count (recordCounter shape), .call (.observe r), .call (.filter r), .count .filtered]
  | undecodable r e =>
    [.count (recordCounter shape), .call (.observe r), .call (.filter r)] ++ refuse e
  | decoded r p =>
    [.count (recordCounter shape), .call (.observe r), .call (.filter r)] ++ route p

lemma exists_befalls (policy : Policy) (shape : Shape) (bs : Bytes) :
    ∃ o : Outcome, o.Befalls policy shape bs ∧ Dispatch.acts policy shape bs = o.acts shape := by
  have hending := ending policy shape bs
  generalize Dispatch.acts policy shape bs = as at hending ⊢
  cases hending with
  | missized size => exact ⟨_, .missized size, rfl⟩
  | queried parsed query => exact ⟨_, .observed parsed query, rfl⟩
  | filtered parsed query drops => exact ⟨_, .dropped parsed query drops, rfl⟩
  | undecodable parsed query drops decode =>
    exact ⟨_, .undecodable parsed query drops decode, rfl⟩
  | routed parsed query drops decode => exact ⟨_, .decoded parsed query drops decode, rfl⟩

lemma tally_acts (o : Outcome) (shape : Shape) (c : Counter) :
    tally c (o.acts shape) = (o.counters shape).count c := by
  cases o <;> simp [acts, counters, refuse, List.count_cons]

/-- The methods that a slice has called: the one for a decoded record, and no other. -/
lemma filterMap_notice?_calls (o : Outcome) :
    o.calls.filterMap Call.notice? = match o with
      | decoded _ p => [.of p]
      | _ => [] := by
  cases o <;> rfl

end Outcome

namespace Dispatcher

variable {σ : Type}

/-- The names that are bound when a call is made. A record is handled after its own is bound. -/
def namesAt (before after : NameTable) : Call → NameTable
  | .handle _ => after
  | _ => before

lemma state_run_acts (d : Dispatcher σ) (o : Outcome) (shape : Shape) :
    (d.run (o.acts shape)).state =
      o.calls.foldl
        (fun s c => d.handler.respond (namesAt d.names (d.run (o.acts shape)).names c) c s)
        d.state := by
  cases o with
  | decoded r p =>
    simp only [Outcome.acts, Outcome.calls, route]
    split <;> rfl
  | _ => rfl

lemma names_run_acts (d : Dispatcher σ) (o : Outcome) (shape : Shape) :
    (d.run (o.acts shape)).names = match o with
      | .decoded _ (.long (.path e)) => d.names.insert e.header.identifier e.name
      | _ => d.names := by
  cases o with
  | decoded r p =>
    rcases p with p | p
    · rfl
    · cases p <;> rfl
  | _ => rfl

/-- A table changes by the one entry that it lacked, or not at all. -/
lemma entries_insert (t : NameTable) (i : Identifier) (name : String) :
    t.insert i name = t ∨
      t.lookup i = none ∧ (t.insert i name).entries = (i, name) :: t.entries := by
  unfold NameTable.insert NameTable.contains
  cases hlookup : t.lookup i with
  | none => exact .inr ⟨rfl, rfl⟩
  | some n => exact .inl rfl

/-- **A slice has exactly one outcome.** The handler gets the calls of that outcome, in their order
and no others, and its counters go up by one each. A decoded record comes to the one method for its
kind. Names change only when a path is decoded whose identifier has none, by that one entry, and the
path is handled with its name bound. -/
theorem one_outcome (d : Dispatcher σ) (shape : Shape) (bs : Bytes) :
    ∃! o : Outcome, o.Befalls d.handler.policy shape bs ∧
      let d' := d.dispatch shape bs
      (d'.handler = d.handler ∧
        d'.state = o.calls.foldl
          (fun s c => d.handler.respond (namesAt d.names d'.names c) c s) d.state) ∧
      (∀ r p, o = .decoded r p → o.calls.filterMap Call.notice? = [.of p] ∧
        (Notice.of p).payload = p ∧ r.kind? = some p.kind ∧ (Notice.of p).label = p.kind.name) ∧
      (∀ c, d'.stats.get c = d.stats.get c + (o.counters shape).count c) ∧
      (d'.names = d.names ∨ ∃ r e, o = .decoded r (.long (.path e)) ∧
        d.names.lookup e.header.identifier = none ∧
        d'.names.entries = (e.header.identifier, e.name) :: d.names.entries) ∧
      ∀ r e, o = .decoded r (.long (.path e)) →
        d'.names.lookup e.header.identifier =
          some ((d.names.lookup e.header.identifier).getD e.name) := by
  obtain ⟨o, hbefalls, hacts⟩ := Outcome.exists_befalls d.handler.policy shape bs
  have hdispatch : d.dispatch shape bs = d.run (o.acts shape) := by rw [dispatch, hacts]
  have hnames := names_run_acts d o shape
  refine ⟨o, ⟨hbefalls, ?_⟩, fun o' h' => h'.1.unique hbefalls⟩
  intro d'
  simp only [d', hdispatch]
  refine ⟨⟨handler_run d _, state_run_acts d o shape⟩, ?_, fun c => ?_, ?_, ?_⟩
  · -- a decoded record comes to the method for its kind
    rintro r p rfl
    cases hbefalls with
    | decoded _ _ _ hdecode =>
      exact ⟨Outcome.filterMap_notice?_calls _, Notice.payload_of p,
        AnyRecord.kind?_of_decode hdecode, Notice.label_of p⟩
  · rw [stats_run, Outcome.tally_acts]
  · -- only a path can bind a name
    split at hnames
    · next r e =>
      rw [hnames]
      exact (entries_insert _ _ _).imp_right fun h => ⟨r, e, rfl, h⟩
    · exact .inl hnames
  · -- the path is handled when its name is bound
    rintro r e rfl
    rw [hnames, NameTable.lookup_insert, if_pos rfl]

end Dispatcher

end ProvenanceRelay
