import ProvenanceRelay.Dispatch
import ProvenanceRelay.Reader.Loop
import ProvenanceRelay.Relay.Channel

/-!
The life of a reader on its thread.

A reader is pinned to its cpu if it is to be, has the handler initialized, tells that it has
started, and then reads its channel until it is stopped. Its channel is closed when it ends, also
when a call to the handler panics. Each step has at most one effect outside the reader.
-/

namespace ProvenanceRelay

namespace Reader

/-- What a reader tells the thread that has started it. -/
inductive Ack where
  | started
  | refused (cpu : Nat) (cause : SystemError)
  deriving DecidableEq, Repr

inductive Stage where
  | pinning
  /-- Not pinned, and about to tell so. -/
  | refused (cause : SystemError)
  | initializing
  | acknowledging
  | acknowledged
  | looping (p : Phase)
  /-- Ends without having told that it has started. -/
  | unwinding
  | closing
  | gone
  deriving DecidableEq, Repr

/-- Whether the reader can still be heard of. -/
def Stage.canTell : Stage → Bool
  | .pinning | .refused _ | .initializing | .acknowledging | .acknowledged | .unwinding => true
  | .looping _ | .closing | .gone => false

inductive News where
  | pinned (fault : Option SystemError)
  | loop (i : Input)
  | go
  /-- The handler panics in the call that is made. -/
  | panic
  deriving DecidableEq, Repr

inductive Effect where
  | act (a : Act)
  | tell (a : Ack)
  | close

end Reader

structure Reader where
  channel : Channel
  perDrain : UInt64
  pins : Bool := false
  stage : Reader.Stage := .pinning
  /-- What is still to be done before the next step of the loop. -/
  todo : List Act := []
  panicked : Bool := false

namespace Reader

def drain (r : Reader) : Drain := ⟨r.channel.shape, r.perDrain⟩

def isOpen (r : Reader) : Bool := r.stage ≠ .gone

/-- What a deed comes down to. -/
def deedActs (policy : Policy) (shape : Shape) : Deed → List Act
  | .fault m => [.count .ioErrors, .call (.report m)]
  | .drained => [.count .drains]
  | .dispatch bs => Dispatch.acts policy shape bs

def pinText (e : SystemError) : String := "Failed setting cpu affinity (" ++ e.message ++ ")."

/-- A step of a reader that has nothing left to do. -/
def move (policy : Policy) (r : Reader) : News → Reader × Option Effect
  | .pinned fault =>
    match r.stage, fault with
    | .pinning, none => (if r.pins then { r with stage := .initializing } else r, none)
    | .pinning, some e =>
      (if r.pins then { r with stage := .refused e, todo := [.call (.report (pinText e))] } else r,
        none)
    | _, _ => (r, none)
  | .loop i =>
    match r.stage with
    | .looping p =>
      let (q, deeds) := r.drain.step p i
      ({ r with
        stage := .looping q
        todo := deeds.flatMap (deedActs policy r.channel.shape) }, none)
    | _ => (r, none)
  | .panic =>
    match r.stage with
    | .initializing =>
      ({ r with stage := .unwinding, panicked := true }, some (.act (.call .init)))
    | _ => (r, none)
  | .go =>
    match r.stage with
    | .pinning => (if r.pins then r else { r with stage := .initializing }, none)
    | .refused e => ({ r with stage := .unwinding }, some (.tell (.refused r.channel.cpu e)))
    | .initializing => ({ r with stage := .acknowledging }, some (.act (.call .init)))
    | .acknowledging => ({ r with stage := .acknowledged }, some (.tell .started))
    | .acknowledged =>
      -- Without room for a drain the reader panics: beyond `maxCapacity` when it asks for the room,
      -- and where 64 bits do not hold the product, under overflow checks, when it multiplies.
      if maxCapacity < r.drain.capacity then
        ({ r with stage := .closing, panicked := true }, none)
      else ({ r with stage := .looping .top }, none)
    | .looping .done => ({ r with stage := .closing }, none)
    | .looping _ => (r, none)
    | .unwinding => ({ r with stage := .closing }, none)
    | .closing => ({ r with stage := .gone }, some .close)
    | .gone => (r, none)

def step (policy : Policy) (r : Reader) (n : News) : Reader × Option Effect :=
  match r.todo, n with
  | [], n => r.move policy n
  | a :: as, .go => ({ r with todo := as }, some (.act a))
  | .call c :: _, .panic =>
    ({ r with
      stage := if r.stage.canTell then .unwinding else .closing
      todo := []
      panicked := true }, some (.act (.call c)))
  | _, _ => (r, none)

end Reader

end ProvenanceRelay
