import ProvenanceRelay.SystemError

/-!
A pool of workers that share one queue of tasks.

A task is counted before it enters the queue and until its worker has finished with it, however it
ends. A closed pool takes no more tasks, but its workers still work off the queue. Where no worker
is left, a task cannot enter the queue and is counted no more.
-/

namespace ProvenanceRelay

inductive Worker (τ : Type) where
  | idle
  | running (task : τ)
  /-- The task has ended and is still counted. -/
  | ended (task : τ)
  | gone
  deriving DecidableEq, Repr

structure WorkerPool (τ : Type) where
  workers : List (Worker τ)
  accepting : Bool := true
  /-- Counted, but not in the queue yet. -/
  offered : List τ := []
  queue : List τ := []
  pending : Nat := 0

namespace WorkerPool

variable {τ : Type}

/-- The most workers that there is room for, each of them taking 24 bytes. -/
def maxSize : Nat := (UInt64.size / 2 - 1) / 24

/-- A pool of idle workers, named after a stem. Only `noThreads` is an error that is returned. Too
many workers to have room for, and a name with a zero character, are panics: `tooManyThreads` and
`badThreadName` stand for them. -/
def new (stem : String) (size : Nat) : Except SystemError (WorkerPool τ) :=
  if size = 0 then .error .noThreads
  else if maxSize < size then .error .tooManyThreads
  else if stem.contains '\x00' then .error .badThreadName
  else .ok { workers := List.replicate size .idle }

def size (p : WorkerPool τ) : Nat := p.workers.length

def threadName (stem : String) (w : Nat) : String := stem ++ "-" ++ Text.Numeral.decimal w

/-- Counts a task. -/
def offer (p : WorkerPool τ) (t : τ) : Except SystemError (WorkerPool τ) :=
  if p.accepting then .ok { p with offered := p.offered ++ [t], pending := p.pending + 1 }
  else .error .poolDestroyed

def isDeserted (p : WorkerPool τ) : Bool :=
  p.workers.all fun | .gone => true | _ => false

/-- Puts a counted task into the queue, if a worker is left. -/
def enqueue (p : WorkerPool τ) (i : Nat) : WorkerPool τ :=
  match p.offered[i]? with
  | some t =>
    if p.isDeserted then { p with offered := p.offered.eraseIdx i, pending := p.pending - 1 }
    else { p with offered := p.offered.eraseIdx i, queue := p.queue ++ [t] }
  | none => p

/-- What is told when no worker is left. -/
def noWorkers : SystemError := .other "worker pool has no live threads"

def submit (p : WorkerPool τ) (t : τ) : Except SystemError (WorkerPool τ) := do
  let p ← p.offer t
  if p.isDeserted then .error noWorkers
  return p.enqueue (p.offered.length - 1)

/-- An idle worker takes the task that has been in the queue for longest. -/
def take (p : WorkerPool τ) (w : Nat) : WorkerPool τ :=
  match p.workers[w]?, p.queue with
  | some .idle, t :: q => { p with workers := p.workers.set w (.running t), queue := q }
  | _, _ => p

/-- A worker's task ends. -/
def finish (p : WorkerPool τ) (w : Nat) : WorkerPool τ :=
  match p.workers[w]? with
  | some (.running t) => { p with workers := p.workers.set w (.ended t) }
  | _ => p

/-- A task that has ended is counted no more. -/
def uncount (p : WorkerPool τ) (w : Nat) : WorkerPool τ :=
  match p.workers[w]? with
  | some (.ended _) =>
    { p with workers := p.workers.set w .idle, pending := p.pending - 1 }
  | _ => p

/-- Takes no more tasks, once those that are counted are in the queue. -/
def close (p : WorkerPool τ) : WorkerPool τ :=
  if p.offered.isEmpty then { p with accepting := false } else p

/-- A worker of a closed pool that finds no task goes. -/
def leave (p : WorkerPool τ) (w : Nat) : WorkerPool τ :=
  match p.workers[w]?, p.queue with
  | some .idle, [] => if p.accepting then p else { p with workers := p.workers.set w .gone }
  | _, _ => p

/-- Whether no task is counted, which is what those who wait for the pool look at. -/
def isIdle (p : WorkerPool τ) : Bool := p.pending = 0

/-! ### Steps -/

/-- How a task ends. A panic is caught, and its worker goes on as after a return. -/
inductive Outcome where
  | returned
  | panicked
  deriving DecidableEq, Repr

inductive Event (τ : Type) where
  | offer (task : τ)
  | enqueue (i : Nat)
  | take (w : Nat)
  | finish (w : Nat) (how : Outcome)
  | uncount (w : Nat)
  | close
  | leave (w : Nat)

def step (p : WorkerPool τ) : Event τ → WorkerPool τ
  | .offer t => (p.offer t).toOption.getD p
  | .enqueue i => p.enqueue i
  | .take w => p.take w
  | .finish w _ => p.finish w
  | .uncount w => p.uncount w
  | .close => p.close
  | .leave w => p.leave w

def run (p : WorkerPool τ) (es : List (Event τ)) : WorkerPool τ := es.foldl step p

@[simp] theorem run_nil (p : WorkerPool τ) : p.run [] = p := rfl

@[simp] theorem run_cons (p : WorkerPool τ) (e : Event τ) (es : List (Event τ)) :
    p.run (e :: es) = (p.step e).run es := rfl

theorem run_append (p : WorkerPool τ) (es fs : List (Event τ)) :
    p.run (es ++ fs) = (p.run es).run fs := by
  simp [run, List.foldl_append]

/-! ### Working off the queue -/

/-- What one worker can do: take a task, and end and uncount it if it can end. -/
def work (ends : τ → Bool) (p : WorkerPool τ) (w : Nat) : WorkerPool τ × List (τ × Nat) :=
  let p := p.take w
  match p.workers[w]? with
  | some (.running t) => if ends t then ((p.finish w).uncount w, [(t, w)]) else (p, [])
  | _ => (p, [])

def round (ends : τ → Bool) (p : WorkerPool τ) : WorkerPool τ × List (τ × Nat) :=
  (List.range p.size).foldl (fun (p, done) w =>
    let (p, more) := p.work ends w
    (p, done ++ more)) (p, [])

def rounds (ends : τ → Bool) : Nat → WorkerPool τ → WorkerPool τ × List (τ × Nat)
  | 0, p => (p, [])
  | n + 1, p =>
    match p.round ends with
    | (p, []) => (p, [])
    | (p, done) =>
      let (p, more) := rounds ends n p
      (p, done ++ more)

/-- Lets the workers work until every task that is left has to wait. The tasks that have ended come
in order, each with its worker. -/
def settle (ends : τ → Bool) (p : WorkerPool τ) : WorkerPool τ × List (τ × Nat) :=
  rounds ends (p.pending + 1) p

end WorkerPool

end ProvenanceRelay
