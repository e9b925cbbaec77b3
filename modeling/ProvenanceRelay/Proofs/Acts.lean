import Mathlib
import ProvenanceRelay.Dispatch

/-!
What the acts of a dispatch come to.

A slice ends in one of five ways, and each has its own list of acts. Performing acts changes a
counter by the number of times it is counted among them, so what has been counted is read off the
acts of a run, in whatever order they are.
-/

namespace ProvenanceRelay

/-! ### Calls and counts -/

namespace Act

def call? : Act → Option Call
  | .call c => some c
  | _ => none

def counts (c : Counter) : Act → Bool
  | .count d => d = c
  | _ => false

end Act

namespace Call

@[simp] def isObserve : Call → Bool
  | observe _ => true
  | _ => false

@[simp] def isReport : Call → Bool
  | report _ => true
  | _ => false

@[simp] def isHandle : Call → Bool
  | handle _ => true
  | _ => false

end Call

def calls (as : List Act) : List Call := as.filterMap Act.call?

def tally (c : Counter) (as : List Act) : ℕ := as.countP (Act.counts c)

@[simp] lemma calls_append (as bs : List Act) : calls (as ++ bs) = calls as ++ calls bs := by
  simp [calls]

@[simp] lemma tally_append (c : Counter) (as bs : List Act) :
    tally c (as ++ bs) = tally c as + tally c bs := by
  simp [tally]

@[simp] lemma calls_nil : calls [] = [] := rfl
@[simp] lemma calls_count (c : Counter) (as : List Act) : calls (.count c :: as) = calls as := rfl
@[simp] lemma calls_bind (i : Identifier) (name : String) (as : List Act) :
    calls (.bind i name :: as) = calls as := rfl
@[simp] lemma calls_call (c : Call) (as : List Act) : calls (.call c :: as) = c :: calls as := rfl

@[simp] lemma tally_nil (c : Counter) : tally c [] = 0 := rfl
@[simp] lemma tally_count (c d : Counter) (as : List Act) :
    tally c (.count d :: as) = tally c as + if d = c then 1 else 0 := by
  simp [tally, List.countP_cons, Act.counts]
@[simp] lemma tally_bind (c : Counter) (i : Identifier) (name : String) (as : List Act) :
    tally c (.bind i name :: as) = tally c as := rfl
@[simp] lemma tally_call (c : Counter) (k : Call) (as : List Act) :
    tally c (.call k :: as) = tally c as := rfl

lemma calls_flatMap {α : Type} (f : α → List Act) (xs : List α) :
    calls (xs.flatMap f) = xs.flatMap fun x => calls (f x) := by
  simp [calls, List.filterMap_flatMap]

lemma Stats.get_init (c : Counter) : ({} : Stats).get c = 0 := by cases c <;> rfl

namespace Dispatcher

variable {σ : Type}

lemma stats_perform (d : Dispatcher σ) (a : Act) (c : Counter) :
    (d.perform a).stats.get c = d.stats.get c + tally c [a] := by
  cases a with
  | count e => simp [perform, Stats.get_count, eq_comm]
  | bind i name => simp [perform]
  | call c => simp [perform]

/-- A counter grows by the number of times that it is counted. -/
lemma stats_run (d : Dispatcher σ) (as : List Act) (c : Counter) :
    (d.run as).stats.get c = d.stats.get c + tally c as := by
  induction as generalizing d with
  | nil => simp
  | cons a as ih =>
    rw [run_cons, ih, stats_perform, Nat.add_assoc, ← tally_append, List.singleton_append]

end Dispatcher

/-! ### How a slice ends -/

namespace AnyRecord

lemma parse_of_size_ne {shape : Shape} {bs : Bytes} (h : bs.length ≠ shape.size) :
    parse shape bs = .error (.wrongSize shape.size bs.length) := by
  cases shape <;> simp [parse, Record.parse, h, Functor.map, Except.map]

lemma parse_of_size_eq {shape : Shape} {bs : Bytes} (h : bs.length = shape.size) :
    ∃ r, parse shape bs = .ok r := by
  cases shape <;> simp [parse, Record.parse, h, Functor.map, Except.map]

lemma size_of_parse {shape : Shape} {bs : Bytes} {r : AnyRecord} (h : parse shape bs = .ok r) :
    bs.length = shape.size := by
  by_contra hne
  rw [parse_of_size_ne hne] at h
  cases h

end AnyRecord

namespace Dispatch

/-- The five ways in which a slice ends, with the acts of each. -/
inductive Ending (policy : Policy) (shape : Shape) (bs : Bytes) : List Act → Prop where
  | missized
    (size : bs.length ≠ shape.size) :
      Ending policy shape bs (refuse (.wrongSize shape.size bs.length))
  | queried {r : AnyRecord}
    (parsed : AnyRecord.parse shape bs = .ok r)
    (query : policy.query = true) :
      Ending policy shape bs [.count (recordCounter shape), .call (.observe r)]
  | filtered {r : AnyRecord}
    (parsed : AnyRecord.parse shape bs = .ok r)
    (query : policy.query = false)
    (drops : policy.drops r = true) :
      Ending policy shape bs
        [.count (recordCounter shape), .call (.observe r), .call (.filter r), .count .filtered]
  | undecodable {r : AnyRecord} {e : DecodeError}
    (parsed : AnyRecord.parse shape bs = .ok r)
    (query : policy.query = false)
    (drops : policy.drops r = false)
    (decoded : r.decode = .error e) :
      Ending policy shape bs
        ([.count (recordCounter shape), .call (.observe r), .call (.filter r)] ++ refuse e)
  | routed {r : AnyRecord} {p : Payload}
    (parsed : AnyRecord.parse shape bs = .ok r)
    (query : policy.query = false)
    (drops : policy.drops r = false)
    (decoded : r.decode = .ok p) :
      Ending policy shape bs
        ([.count (recordCounter shape), .call (.observe r), .call (.filter r)] ++ route p)

lemma ending (policy : Policy) (shape : Shape) (bs : Bytes) :
    Ending policy shape bs (acts policy shape bs) := by
  by_cases hsize : bs.length = shape.size
  · obtain ⟨r, hparse⟩ := AnyRecord.parse_of_size_eq hsize
    cases hquery : policy.query with
    | true => simpa [acts, hparse, hquery] using Ending.queried hparse hquery
    | false =>
      cases hdrops : policy.drops r with
      | true => simpa [acts, hparse, hquery, hdrops] using Ending.filtered hparse hquery hdrops
      | false =>
        cases hdecode : r.decode with
        | error e =>
          simpa [acts, hparse, hquery, hdrops, hdecode] using
            Ending.undecodable hparse hquery hdrops hdecode
        | ok p =>
          simpa [acts, hparse, hquery, hdrops, hdecode] using
            Ending.routed hparse hquery hdrops hdecode
  · rw [acts, AnyRecord.parse_of_size_ne hsize]
    exact .missized hsize

@[simp] lemma calls_route (p : Payload) : calls (route p) = [.handle p] := by
  unfold route
  split <;> rfl

@[simp] lemma tally_route (c : Counter) (p : Payload) : tally c (route p) = 0 := by
  unfold route
  split <;> rfl

end Dispatch

/-! ### Slices and faults one after another -/

/-- What a dispatcher is given: a slice of either shape, or a fault of the relay itself. -/
inductive Delivery where
  | slice (shape : Shape) (bs : Bytes)
  | fault (message : String)

namespace Delivery

@[simp] def isSized : Delivery → Bool
  | slice shape bs => bs.length = shape.size
  | fault _ => false

@[simp] def isMissized : Delivery → Bool
  | slice shape bs => bs.length ≠ shape.size
  | fault _ => false

@[simp] def isFault : Delivery → Bool
  | slice _ _ => false
  | fault _ => true

def acts (policy : Policy) : Delivery → List Act
  | slice shape bs => Dispatch.acts policy shape bs
  | fault message => [.call (.report message)]

end Delivery

namespace Dispatcher

variable {σ : Type}

def deliver (d : Dispatcher σ) : Delivery → Dispatcher σ
  | .slice shape bs => d.dispatch shape bs
  | .fault message => d.report message

def deliverAll (d : Dispatcher σ) (xs : List Delivery) : Dispatcher σ := xs.foldl deliver d

lemma deliver_eq_run (d : Dispatcher σ) (x : Delivery) :
    d.deliver x = d.run (x.acts d.handler.policy) := by
  cases x <;> rfl

lemma deliverAll_eq_run (d : Dispatcher σ) (xs : List Delivery) :
    d.deliverAll xs = d.run (xs.flatMap (Delivery.acts d.handler.policy)) := by
  induction xs generalizing d with
  | nil => rfl
  | cons x xs ih =>
    have hhandler : (d.deliver x).handler = d.handler := by rw [deliver_eq_run, handler_run]
    rw [List.flatMap_cons, run_append, ← deliver_eq_run, ← hhandler, ← ih]
    rfl

def feed (d : Dispatcher σ) (shape : Shape) (slices : List Bytes) : Dispatcher σ :=
  slices.foldl (fun d bs => d.dispatch shape bs) d

lemma feed_eq_run (d : Dispatcher σ) (shape : Shape) (slices : List Bytes) :
    d.feed shape slices = d.run (slices.flatMap (Dispatch.acts d.handler.policy shape)) := by
  have hdeliver : d.feed shape slices = d.deliverAll (slices.map (Delivery.slice shape)) := by
    rw [deliverAll, List.foldl_map]
    rfl
  rw [hdeliver, deliverAll_eq_run, List.flatMap_map]
  rfl

end Dispatcher

end ProvenanceRelay
