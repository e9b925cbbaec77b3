import ProvenanceRelay.WorkerPool

/-!
A pool in use.

Those who wait for a pool look at the count, and rest until they are woken or their time is up. Who
destroys a pool closes it, looks at the count once, and waits for the workers only if no task is
counted. Otherwise the workers are left to themselves.
-/

namespace ProvenanceRelay

namespace Waiter

inductive Stage where
  /-- About to look at the count. -/
  | looking
  | resting
  /-- Waits no more: whether no task was counted. -/
  | done (idle : Bool)
  deriving DecidableEq, Repr

end Waiter

/-- Someone who waits for a pool to be idle, for ever or for some time. -/
structure Waiter where
  timed : Bool
  stage : Waiter.Stage := .looking
  deriving DecidableEq, Repr

namespace Waiter

/-- Looks at the count, maybe at a late time. -/
def look (idle late : Bool) (x : Waiter) : Waiter :=
  match x.stage with
  | .looking =>
    { x with
      stage := if idle then .done true else if x.timed && late then .done false else .resting }
  | _ => x

/-- Is woken, be it by the last task, by the end of its time or for no reason. -/
def wake (x : Waiter) : Waiter :=
  match x.stage with
  | .resting => { x with stage := .looking }
  | _ => x

end Waiter

/-- How far a pool has been destroyed. -/
inductive Demolition where
  | none
  /-- The pool takes no more tasks. -/
  | closed
  | joining
  /-- Whether the workers have been waited for. -/
  | ended (joined : Bool)
  deriving DecidableEq, Repr

structure Workplace (τ : Type) where
  pool : WorkerPool τ
  waiters : List Waiter := []
  demolition : Demolition := .none

namespace Workplace

variable {τ : Type}

inductive Event (τ : Type) where
  | pool (e : WorkerPool.Event τ)
  /-- Someone begins to wait. -/
  | arrive (timed : Bool)
  | look (i : Nat) (late : Bool)
  | wake (i : Nat)
  /-- Who destroys the pool goes on. -/
  | demolish

/-- The next step of who destroys the pool. There is none while a task is being submitted. -/
def demolish (p : Workplace τ) : Workplace τ :=
  match p.demolition with
  | .none =>
    if p.pool.offered.isEmpty then { p with pool := p.pool.close, demolition := .closed } else p
  | .closed => { p with demolition := if p.pool.isIdle then .joining else .ended false }
  | .joining => if p.pool.isDeserted then { p with demolition := .ended true } else p
  | .ended _ => p

def step (p : Workplace τ) : Event τ → Workplace τ
  | .pool e => { p with pool := p.pool.step e }
  | .arrive timed => { p with waiters := p.waiters ++ [{ timed }] }
  | .look i late => { p with waiters := p.waiters.modify i (Waiter.look p.pool.isIdle late) }
  | .wake i => { p with waiters := p.waiters.modify i Waiter.wake }
  | .demolish => p.demolish

def run (p : Workplace τ) (es : List (Event τ)) : Workplace τ := es.foldl step p

@[simp] theorem run_nil (p : Workplace τ) : p.run [] = p := rfl

@[simp] theorem run_cons (p : Workplace τ) (e : Event τ) (es : List (Event τ)) :
    p.run (e :: es) = (p.step e).run es := rfl

theorem run_append (p : Workplace τ) (es fs : List (Event τ)) :
    p.run (es ++ fs) = (p.run es).run fs := by
  simp [run, List.foldl_append]

end Workplace

end ProvenanceRelay
