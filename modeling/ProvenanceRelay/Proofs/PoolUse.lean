import Mathlib
import ProvenanceRelay.Proofs.PoolRun

/-!
A pool in the hands of those who submit tasks, wait for them and destroy it.

Whoever waits for a pool returns when no task is counted, so every task that has been counted by
then is finished with. A pool that is closed refuses tasks, and works off those that it has as long
as one of its workers goes on.
-/

namespace ProvenanceRelay

namespace WorkerPool

variable {τ : Type}

/-! ### A worker that goes on -/

/-- A worker gets to each of its steps again and again, so that its tasks end. -/
structure Diligent (w : ℕ) (next : ℕ → Event τ) : Prop where
  take : ∀ n, ∃ m ≥ n, next m = .take w
  finish : ∀ n, ∃ m ≥ n, ∃ how, next m = .finish w how
  uncount : ∀ n, ∃ m ≥ n, next m = .uncount w

def first (next : ℕ → Event τ) (n : ℕ) : List (Event τ) := (List.range n).map next

lemma first_succ (next : ℕ → Event τ) (n : ℕ) : first next (n + 1) = first next n ++ [next n] := by
  simp [first, List.range_succ]

lemma run_first_succ (p : WorkerPool τ) (next : ℕ → Event τ) (n : ℕ) :
    p.run (first next (n + 1)) = (p.run (first next n)).step (next n) := by
  rw [first_succ, run_append, run_cons, run_nil]

lemma log_first_succ (p : WorkerPool τ) (next : ℕ → Event τ) (n : ℕ) :
    p.log (first next (n + 1)) =
      p.log (first next n) ++ ((p.run (first next n)).note? (next n)).toList := by
  rw [first_succ, log_append, log, log, List.append_nil]

/-- What a worker has come to after so many steps. -/
def workerAt (p : WorkerPool τ) (next : ℕ → Event τ) (w n : ℕ) : Worker τ :=
  (p.run (first next n)).workers[w]?.getD .gone

/-- How many steps a worker is from having no task in hand. -/
def rank : Worker τ → ℕ
  | .running _ => 2
  | .ended _ => 1
  | .idle | .gone => 0

lemma length_workers_step (p : WorkerPool τ) (e : Event τ) :
    (p.step e).workers.length = p.workers.length := by
  have hmove := p.move e
  generalize p.note? e = n, p.step e = q at hmove ⊢
  cases hmove <;> simp

lemma length_workers_run (p : WorkerPool τ) (es : List (Event τ)) :
    (p.run es).workers.length = p.workers.length :=
  run_inv (P := fun q => q.workers.length = p.workers.length)
    (fun q e hq => (q.length_workers_step e).trans hq) rfl es

/-- While no task is taken, a worker comes no further from having none in hand. -/
lemma rank_step (p : WorkerPool τ) {e : Event τ} (hq : p.queue ≠ [])
    (hnone : ∀ t, p.note? e ≠ some (.taken, t)) (w : ℕ) :
    rank ((p.step e).workers[w]?.getD .gone) ≤ rank (p.workers[w]?.getD .gone) := by
  have hmove := p.move e
  generalize p.note? e = n, p.step e = q at hmove hnone ⊢
  have hset : ∀ {v : ℕ} {a b : Worker τ}, p.workers[v]? = some a → rank b ≤ rank a →
      rank ((p.workers.set v b)[w]?.getD .gone) ≤ rank (p.workers[w]?.getD .gone) := by
    intro v a b ha hrank
    rcases eq_or_ne v w with rfl | hvw
    · have hlt := (List.getElem?_eq_some_iff.mp ha).1
      simp only [ha, List.getElem?_set_self hlt, Option.getD_some]
      exact hrank
    · rw [List.getElem?_set_ne hvw]
  cases hmove with
  | take h hq => exact (hnone _ rfl).elim
  | finish h => exact hset h (by simp [rank])
  | uncount h => exact hset h (by simp [rank])
  | leave h hnil => exact (hq hnil).elim
  | _ => exact le_rfl

lemma finish_of_running {p : WorkerPool τ} {w : ℕ} {t : τ}
    (h : p.workers[w]? = some (.running t)) :
    p.finish w = { p with workers := p.workers.set w (.ended t) } := by
  simp only [finish, h]

lemma uncount_of_ended {p : WorkerPool τ} {w : ℕ} {t : τ}
    (h : p.workers[w]? = some (.ended t)) :
    p.uncount w = { p with workers := p.workers.set w .idle, pending := p.pending - 1 } := by
  simp only [uncount, h]

section

variable {p : WorkerPool τ} {next : ℕ → Event τ} {w n : ℕ}

lemma queue_ne_nil (hq : (p.run (first next n)).queue ≠ [])
    (hnone : ∀ m ≥ n, ∀ t, (p.run (first next m)).note? (next m) ≠ some (.taken, t)) :
    ∀ m ≥ n, (p.run (first next m)).queue ≠ [] := by
  intro m hm
  induction m, hm using Nat.le_induction with
  | base => exact hq
  | succ m hm ih =>
    have hstep := (p.run (first next m)).queue_step (next m)
    have htaken : Log.tasks .taken ((p.run (first next m)).note? (next m)).toList = [] := by
      rcases hnote : (p.run (first next m)).note? (next m) with _ | ⟨f, t⟩
      · rfl
      · have hf : f ≠ .taken := fun h => hnone m hm t (by rw [hnote, h])
        simp [Log.tasks, hf]
    rw [htaken, List.nil_append, ← run_first_succ] at hstep
    rw [← hstep]
    simp [ih]

lemma exists_rank_eq (hq : ∀ m ≥ n, (p.run (first next m)).queue ≠ [])
    (hnone : ∀ m ≥ n, ∀ t, (p.run (first next m)).note? (next m) ≠ some (.taken, t)) (w : ℕ) :
    ∃ m ≥ n, ∀ k ≥ m, rank (p.workerAt next w k) = rank (p.workerAt next w m) := by
  let least := Function.argminOn (fun k => rank (p.workerAt next w k)) {k | n ≤ k} ⟨n, le_refl n⟩
  have hleast : n ≤ least := Function.argminOn_mem (fun k => rank (p.workerAt next w k)) _ _
  refine ⟨least, hleast, fun k hk => le_antisymm ?_ ?_⟩
  · induction k, hk using Nat.le_induction with
    | base => exact le_rfl
    | succ k hk ih =>
      refine le_trans ?_ ih
      unfold workerAt
      rw [run_first_succ]
      exact rank_step _ (hq k (hleast.trans hk)) (hnone k (hleast.trans hk)) w
  · exact Function.argminOn_le (fun k => rank (p.workerAt next w k)) _ (hleast.trans hk)

/-- **A pool with tasks in its queue hands one out**, if one of its workers goes on. -/
lemma exists_taken (hp : p.Manned) (hw : w < p.workers.length) (h : Diligent w next)
    (hq : (p.run (first next n)).queue ≠ []) :
    ∃ m ≥ n, ∃ t, (p.run (first next m)).note? (next m) = some (.taken, t) := by
  by_contra hno
  have hnone : ∀ m ≥ n, ∀ t, (p.run (first next m)).note? (next m) ≠ some (.taken, t) :=
    fun m hm t ht => hno ⟨m, hm, t, ht⟩
  have hqueue := queue_ne_nil hq hnone
  obtain ⟨m, hm, hsame⟩ := exists_rank_eq hqueue hnone w
  have hworker : ∀ k, (p.run (first next k)).workers[w]? = some (p.workerAt next w k) := by
    intro k
    have hlt : w < (p.run (first next k)).workers.length := by rwa [length_workers_run]
    simp [workerAt, hlt]
  have hafter : ∀ k ≥ m, rank (((p.run (first next k)).step (next k)).workers[w]?.getD .gone) =
      rank (p.workerAt next w k) := by
    intro k hk
    rw [hsame k hk, ← hsame (k + 1) (by omega), workerAt, run_first_succ]
  have hlt : ∀ k, w < (p.run (first next k)).workers.length := by
    intro k
    rwa [length_workers_run]
  -- the next step that is the worker's to take would change its rank
  cases hx : p.workerAt next w m with
  | running t =>
    obtain ⟨k, hk, how, hnext⟩ := h.finish m
    have hrank := hsame k hk
    have hchanged := hafter k hk
    cases hy : p.workerAt next w k with
    | running u =>
      rw [hnext, step, finish_of_running (hy ▸ hworker k)] at hchanged
      simp [hy, rank, hlt] at hchanged
    | _ => simp [hx, hy, rank] at hrank
  | ended t =>
    obtain ⟨k, hk, hnext⟩ := h.uncount m
    have hrank := hsame k hk
    have hchanged := hafter k hk
    cases hy : p.workerAt next w k with
    | ended u =>
      rw [hnext, step, uncount_of_ended (hy ▸ hworker k)] at hchanged
      simp [hy, rank, hlt] at hchanged
    | _ => simp [hx, hy, rank] at hrank
  | idle =>
    obtain ⟨k, hk, hnext⟩ := h.take m
    have hrank := hsame k hk
    obtain ⟨t, q, hcons⟩ := List.exists_cons_of_ne_nil (hqueue k (hm.trans hk))
    cases hy : p.workerAt next w k with
    | idle => exact hnone k (hm.trans hk) t (by simp [hnext, note?, hworker, hy, hcons])
    | gone =>
      have hgone := (hp.run (first next k)).queue (List.mem_of_getElem? (hy ▸ hworker k))
      simp [hgone] at hcons
    | _ => simp [hx, hy, rank] at hrank
  | gone =>
    -- a worker leaves only when the queue is empty
    have hgone := (hp.run (first next m)).queue (List.mem_of_getElem? (hx ▸ hworker m))
    exact hqueue m hm hgone

lemma tasks_first_prefix (p : WorkerPool τ) (next : ℕ → Event τ) (f : Fate) {n m : ℕ}
    (hnm : n ≤ m) :
    (p.log (first next n)).tasks f <+: (p.log (first next m)).tasks f := by
  induction m, hnm using Nat.le_induction with
  | base => exact List.prefix_rfl
  | succ m hm ih =>
    rw [log_first_succ, Log.tasks_append]
    exact ih.trans (List.prefix_append _ _)

lemma exists_length_taken (hp : p.Manned) (hw : w < p.workers.length) (h : Diligent w next)
    (n : ℕ) {k : ℕ}
    (hk : k ≤ (p.queue ++ (p.log (first next n)).tasks .entered).length) :
    ∃ m ≥ n, k ≤ ((p.log (first next m)).tasks .taken).length := by
  -- the induction is on the number of tasks that have been taken
  induction k with
  | zero => exact ⟨n, le_rfl, Nat.zero_le _⟩
  | succ k ih =>
    obtain ⟨m, hm, hle⟩ := ih (by omega)
    by_cases hnil : (p.run (first next m)).queue = []
    · -- with an empty queue, all that has entered has been taken
      have hqueue := congrArg List.length (p.queue_run (first next m))
      have hentered := (p.tasks_first_prefix next .entered hm).length_le
      simp only [hnil, List.append_nil, List.length_append] at hk hqueue
      exact ⟨m, hm, by omega⟩
    · -- otherwise one more is taken
      obtain ⟨l, hl, t, hnote⟩ := exists_taken hp hw h hnil
      have htaken := (p.tasks_first_prefix next .taken hl).length_le
      refine ⟨l + 1, by omega, ?_⟩
      rw [log_first_succ, Log.tasks_append, hnote]
      simp [Log.tasks] at hle htaken ⊢
      omega

/-- **What is in the queue or enters it is taken, in this order**, if a worker goes on. -/
lemma exists_prefix_taken (hp : p.Manned) (hw : w < p.workers.length) (h : Diligent w next)
    (n : ℕ) :
    ∃ m ≥ n, p.queue ++ (p.log (first next n)).tasks .entered <+:
      (p.log (first next m)).tasks .taken := by
  obtain ⟨m, hm, hlength⟩ := exists_length_taken hp hw h n le_rfl
  have hentered : p.queue ++ (p.log (first next n)).tasks .entered <+:
      p.queue ++ (p.log (first next m)).tasks .entered :=
    (List.prefix_append_right_inj _).mpr (p.tasks_first_prefix next .entered hm)
  rw [queue_run p (first next m)] at hentered
  exact ⟨m, hm, List.prefix_of_prefix_length_le hentered (List.prefix_append _ _) hlength⟩

end

/-! ### A worker and its task -/

def Event.worker? : Event τ → Option ℕ
  | .take w | .finish w _ | .uncount w | .leave w => some w
  | .offer _ | .enqueue _ | .close => none

lemma worker_step (p : WorkerPool τ) {e : Event τ} {w : ℕ} (h : e.worker? ≠ some w) :
    (p.step e).workers[w]? = p.workers[w]? := by
  cases e with
  | offer t =>
    dsimp only [step]
    unfold offer
    split <;> rfl
  | enqueue i =>
    dsimp only [step]
    unfold enqueue
    split
    · split <;> rfl
    · rfl
  | close =>
    dsimp only [step]
    unfold close
    split <;> rfl
  | take v =>
    have hv : v ≠ w := fun hvw => h (by rw [hvw]; rfl)
    dsimp only [step]
    unfold take
    split
    · simp [hv]
    · rfl
  | finish v how =>
    have hv : v ≠ w := fun hvw => h (by rw [hvw]; rfl)
    dsimp only [step]
    unfold finish
    split
    · simp [hv]
    · rfl
  | uncount v =>
    have hv : v ≠ w := fun hvw => h (by rw [hvw]; rfl)
    dsimp only [step]
    unfold uncount
    split
    · simp [hv]
    · rfl
  | leave v =>
    have hv : v ≠ w := fun hvw => h (by rw [hvw]; rfl)
    dsimp only [step]
    unfold leave
    split
    · split
      · rfl
      · simp [hv]
    · rfl

lemma worker_run (p : WorkerPool τ) {es : List (Event τ)} {w : ℕ}
    (h : ∀ e ∈ es, e.worker? ≠ some w) : (p.run es).workers[w]? = p.workers[w]? := by
  induction es generalizing p with
  | nil => rfl
  | cons e es ih =>
    rw [run_cons, ih (p.step e) fun f hf => h f (by simp [hf]), worker_step p (h e (by simp))]

/-- **However a task ends, its worker is free again**, and the task is counted no more. -/
lemma Balanced.free_worker {p : WorkerPool τ} (h : p.Balanced) {w : ℕ} {t : τ}
    (hw : p.workers[w]? = some (.running t)) (how : Outcome) {others : List (Event τ)}
    (hothers : ∀ e ∈ others, e.worker? ≠ some w) :
    let q := p.run (.finish w how :: others)
    q.workers[w]? = some (.ended t) ∧
      (q.step (.uncount w)).workers[w]? = some .idle ∧
      (q.step (.uncount w)).pending + 1 = q.pending := by
  intro q
  have hlt := (List.getElem?_eq_some_iff.mp hw).1
  have hended : q.workers[w]? = some (.ended t) := by
    change ((p.finish w).run others).workers[w]? = _
    rw [worker_run _ hothers, finish_of_running hw]
    simp [hlt]
  have hbalanced : q.Balanced := h.run _
  have hltq := (List.getElem?_eq_some_iff.mp hended).1
  refine ⟨hended, ?_, ?_⟩
  · have huncount : q.step (.uncount w) = _ := uncount_of_ended hended
    rw [huncount]
    simp [hltq]
  · have hnote : q.note? (.uncount w) = some (.finished, t) := by simp only [note?, hended]
    simpa [hnote, Log.tasks] using hbalanced.pending_step (.uncount w)

lemma submit_of_closed {p : WorkerPool τ} (h : p.accepting = false) (t : τ) :
    p.submit t = .error .poolDestroyed ∧ p.step (.offer t) = p := by
  simp [submit, offer, step, h, Bind.bind, Except.bind, Except.toOption]

lemma close_of_closed {p : WorkerPool τ} (h : p.accepting = false) : p.close = p := by
  unfold close
  split
  · rw [← h]
  · rfl

end WorkerPool

namespace Workplace

open WorkerPool (Diligent Log first)

variable {τ : Type}

/-! ### Those who wait and who destroy -/

/-- What an event is for the pool. -/
def Event.pool? : Event τ → Option (WorkerPool.Event τ)
  | .pool e => some e
  | .demolish => some .close
  | .arrive _ | .look _ _ | .wake _ => none

def Closed (u : Workplace τ) : Prop := u.demolition ≠ .none → u.pool.accepting = false

lemma pool_step {u : Workplace τ} (h : u.Closed) (e : Event τ) :
    (u.step e).pool = u.pool.run e.pool?.toList ∧ (u.step e).Closed := by
  cases e with
  | pool e => exact ⟨rfl, fun hd => WorkerPool.accepting_run (h hd) [e]⟩
  | demolish =>
    change u.demolish.pool = u.pool.close ∧ u.demolish.Closed
    cases hd : u.demolition with
    | none =>
      cases hempty : u.pool.offered.isEmpty with
      | true =>
        have hclose : u.pool.close.accepting = false := by simp [WorkerPool.close, hempty]
        simpa [demolish, hd, hempty, Closed] using hclose
      | false => simp [demolish, hd, hempty, WorkerPool.close, Closed]
    | closed =>
      have hclosed := h (by simp [hd])
      simpa [demolish, hd, WorkerPool.close_of_closed hclosed, Closed] using fun _ => hclosed
    | joining =>
      have hclosed := h (by simp [hd])
      rw [WorkerPool.close_of_closed hclosed]
      unfold demolish
      simp only [hd]
      split <;> exact ⟨rfl, fun _ => hclosed⟩
    | ended joined =>
      have hclosed := h (by simp [hd])
      simpa [demolish, hd, WorkerPool.close_of_closed hclosed, Closed] using hclosed
  | _ => exact ⟨rfl, h⟩

lemma pool_run {u : Workplace τ} (h : u.Closed) (es : List (Event τ)) :
    (u.run es).pool = u.pool.run (es.filterMap Event.pool?) ∧ (u.run es).Closed := by
  induction es generalizing u with
  | nil => exact ⟨rfl, h⟩
  | cons e es ih =>
    obtain ⟨hpool, hclosed⟩ := pool_step h e
    obtain ⟨hrun, hlast⟩ := ih hclosed
    refine ⟨?_, hlast⟩
    rw [run_cons, hrun, hpool]
    cases he : e.pool? <;> simp [he]

/-- Whoever waits no more has looked at the count, and has given up only late. -/
lemma exists_look {u : Workplace τ} (hu : u.waiters = []) {es : List (Event τ)} {i : ℕ}
    {timed idle : Bool} (hdone : (u.run es).waiters[i]? = some ⟨timed, .done idle⟩) :
    ∃ before late after, es = before ++ .look i late :: after ∧
      (u.run before).waiters[i]? = some ⟨timed, .looking⟩ ∧
      (u.run before).pool.isIdle = idle ∧ (idle = false → timed = true) := by
  induction es using List.reverseRecOn with
  | nil => simp [hu] at hdone
  | append_singleton es e ih =>
    -- who had stopped waiting before the last event has looked before it
    have hearlier : (u.run es).waiters[i]? = some ⟨timed, .done idle⟩ →
        ∃ before late after, es ++ [e] = before ++ .look i late :: after ∧
          (u.run before).waiters[i]? = some ⟨timed, .looking⟩ ∧
          (u.run before).pool.isIdle = idle ∧ (idle = false → timed = true) := by
      intro h
      obtain ⟨before, late, after, rfl, hrest⟩ := ih h
      exact ⟨before, late, after ++ [e], by simp, hrest⟩
    rw [run_append, run_cons, run_nil] at hdone
    cases e with
    | pool e => exact hearlier hdone
    | demolish =>
      refine hearlier (hdone ▸ ?_)
      change _ = (demolish _).waiters[i]?
      unfold demolish
      split
      · split <;> rfl
      · rfl
      · split <;> rfl
      · rfl
    | arrive timed =>
      apply hearlier
      simp only [step, List.getElem?_append] at hdone
      split at hdone
      · exact hdone
      · rcases hi : i - (u.run es).waiters.length with _ | n <;> simp [hi] at hdone
    | wake j =>
      apply hearlier
      simp only [step, List.getElem?_modify] at hdone
      obtain ⟨x, hx, hwake⟩ := Option.map_eq_some_iff.mp hdone
      rw [hx]
      split at hwake
      · unfold Waiter.wake at hwake
        split at hwake
        · cases hwake
        · exact congrArg some hwake
      · exact congrArg some hwake
    | look j late =>
      simp only [step, List.getElem?_modify] at hdone
      obtain ⟨x, hx, hlook⟩ := Option.map_eq_some_iff.mp hdone
      split at hlook
      · -- it is this one who looks
        next hji =>
        subst hji
        unfold Waiter.look at hlook
        split at hlook
        · next hlooking =>
          obtain ⟨rfl, hstage⟩ := Waiter.mk.inj hlook
          refine ⟨es, late, [], by simp, by rw [hx, ← hlooking], ?_⟩
          cases hidle : (u.run es).pool.isIdle with
          | true =>
            obtain rfl : true = idle := by simpa [hidle] using hstage
            exact ⟨rfl, fun h => by cases h⟩
          | false =>
            cases hlate : x.timed && late <;> simp [hidle, hlate] at hstage
            exact ⟨hstage.symm, fun _ => (Bool.and_eq_true_iff.mp hlate).1⟩
        · -- whoever does not look now has looked before
          exact hearlier (hx.trans (congrArg some hlook))
      · exact hearlier (hx.trans (congrArg some hlook))

/-! ### Everything together -/

def log (u : Workplace τ) (es : List (Event τ)) : Log τ := u.pool.log (es.filterMap Event.pool?)

lemma refused_eq_nil {p : WorkerPool τ} (h : p.Manned) (e : WorkerPool.Event τ) :
    Log.tasks .refused (p.note? e).toList = [] := by
  simpa [WorkerPool.log] using h.refused_eq_nil [e]

/-- **Every task is accounted for, and each is taken once and in order**, however submissions, the
workers' steps, waits and the pool's destruction are mixed. A wait ends well only when everything
that has been counted is finished with, and a pool that is being destroyed takes no more tasks. -/
theorem tasks_accounted {stem : String} {size : ℕ} {p : WorkerPool τ}
    (hp : WorkerPool.new stem size = .ok p) (es : List (Event τ)) :
    let start : Workplace τ := { pool := p }
    let u := start.run es
    let q := u.pool
    let log := start.log
    (q.pending = q.unfinished.length ∧
      ((log es).tasks .counted).Perm ((log es).tasks .finished ++ q.unfinished) ∧
      ∀ e, (q.step e).pending + (Log.tasks .finished (q.note? e).toList).length =
        q.pending + (Log.tasks .counted (q.note? e).toList).length) ∧
    ((log es).tasks .entered = (log es).tasks .taken ++ q.queue ∧
      ((log es).tasks .counted).Perm ((log es).tasks .entered ++ q.offered) ∧
      ∀ w < size, ∀ next, Diligent w next → ∀ n, ∃ m ≥ n,
        q.queue ++ (q.log (first next n)).tasks .entered <+:
          (q.log (first next m)).tasks .taken) ∧
    (∀ i timed idle, u.waiters[i]? = some ⟨timed, .done idle⟩ →
      (timed = false → idle = true) ∧
      (idle = true → ∃ before late after, es = before ++ .look i late :: after ∧
        (start.run before).waiters[i]? = some ⟨timed, .looking⟩ ∧
        ((log before).tasks .counted).Perm ((log before).tasks .finished))) ∧
    (∀ w t how others, q.workers[w]? = some (.running t) → (∀ e ∈ others, e.worker? ≠ some w) →
      let later := q.run (.finish w how :: others)
      later.workers[w]? = some (.ended t) ∧
        (later.step (.uncount w)).workers[w]? = some .idle ∧
        (later.step (.uncount w)).pending + 1 = later.pending) ∧
    (u.demolition ≠ .none → ∀ fs t,
      let later := (u.run fs).pool
      later.submit t = .error .poolDestroyed ∧ later.step (.offer t) = later) := by
  intro start u q log
  obtain ⟨hsize, hnew⟩ := WorkerPool.new_eq_ok hp
  have hmanned : p.Manned := hnew ▸ WorkerPool.manned_new hsize
  have hbalanced : p.Balanced := hnew ▸ WorkerPool.balanced_new size
  have hstart : p.queue = [] := by rw [hnew]
  have hoffered : p.offered = [] := by rw [hnew]
  have hunfinished : p.unfinished = [] := by
    simp [hnew, WorkerPool.unfinished, WorkerPool.filterMap_task?_replicate]
  -- for the pool, being used is going through the events that concern it
  have hpool : ∀ es,
      (start.run es).pool = p.run (es.filterMap Event.pool?) ∧ (start.run es).Closed :=
    fun es => pool_run (fun h => (h rfl).elim) es
  have hq : q = p.run (es.filterMap Event.pool?) := (hpool es).1
  -- nobody is refused while workers are left, so what is counted is finished or unfinished
  have hcounted : ∀ es, ((log es).tasks .counted).Perm
      ((log es).tasks .finished ++ (start.run es).pool.unfinished) := by
    intro es
    have hperm := WorkerPool.perm_run WorkerPool.unfinished_step p (es.filterMap Event.pool?)
    rw [hmanned.refused_eq_nil, List.append_nil, hunfinished, List.nil_append] at hperm
    rw [(hpool es).1]
    exact hperm
  have hqbalanced : q.Balanced := hq ▸ hbalanced.run _
  have hqmanned : q.Manned := hq ▸ hmanned.run _
  refine ⟨⟨hqbalanced, hcounted es, fun e => ?_⟩, ⟨?_, ?_, fun w hw next hnext n => ?_⟩,
    fun i timed idle hdone => ?_, fun w t how others hw hothers => ?_, fun hd fs t => ?_⟩
  · -- a step changes the count by what it counts and by what it finishes
    simpa [refused_eq_nil hqmanned] using hqbalanced.pending_step e
  · -- what has entered the queue has been taken, or is in it
    have hqueue := p.queue_run (es.filterMap Event.pool?)
    rwa [← hq, hstart, List.nil_append] at hqueue
  · -- what is counted has entered the queue, or is being submitted
    have hperm := WorkerPool.perm_run WorkerPool.offered_step p (es.filterMap Event.pool?)
    rw [hmanned.refused_eq_nil, List.append_nil, ← hq, hoffered,
      List.nil_append] at hperm
    exact hperm
  · -- a worker that goes on takes everything in its turn
    refine WorkerPool.exists_prefix_taken hqmanned ?_ hnext n
    rwa [hq, WorkerPool.length_workers_run, hnew, List.length_replicate]
  · -- whoever waits no more has looked at the count
    obtain ⟨before, late, after, hes, hlooking, hidle, htimed⟩ := exists_look rfl hdone
    refine ⟨fun h => ?_, fun h => ⟨before, late, after, hes, hlooking, ?_⟩⟩
    · -- only a wait with a time gives up
      by_contra hnot
      simp [htimed (by simpa using hnot)] at h
    · -- where the count is zero, nothing is unfinished
      have hempty : (start.run before).pool.unfinished = [] := by
        have hbefore : (start.run before).pool.Balanced := (hpool before).1 ▸ hbalanced.run _
        have hzero : (start.run before).pool.pending = 0 := by
          simpa [WorkerPool.isIdle, h] using hidle
        exact List.eq_nil_of_length_eq_zero (hbefore.symm.trans hzero)
      simpa [hempty] using hcounted before
  · -- a task that ends leaves its worker to the next one
    exact hqbalanced.free_worker hw how hothers
  · -- a pool that is being destroyed is closed, and stays closed
    have hclosed : q.accepting = false := (hpool es).2 hd
    have hlater : ((u.run fs).pool).accepting = false := by
      rw [(pool_run (hpool es).2 fs).1]
      exact WorkerPool.accepting_run hclosed _
    exact WorkerPool.submit_of_closed hlater t

/-- A pool of one worker that is destroyed while two tasks are counted, the first of which panics,
and that someone waits for. -/
def destroyedEarly : List (Event Bool) :=
  [.pool (.offer true), .pool (.enqueue 0), .pool (.offer false), .pool (.enqueue 0),
    .arrive true, .look 0 false, .pool (.take 0), .demolish, .demolish,
    .pool (.finish 0 .panicked), .pool (.uncount 0), .wake 0, .look 0 false, .pool (.take 0),
    .pool (.finish 0 .returned), .pool (.uncount 0), .wake 0, .look 0 true]

theorem tasks_accounted_destroyedEarly :
    let start : Workplace Bool := { pool := { workers := [.idle] } }
    (start.run destroyedEarly).demolition = .ended false ∧
      (start.run destroyedEarly).waiters = [⟨true, .done true⟩] ∧
      (start.log destroyedEarly).tasks .entered = [true, false] ∧
      (start.log destroyedEarly).tasks .taken = [true, false] ∧
      ((start.log destroyedEarly).tasks .counted).Perm
        ((start.log destroyedEarly).tasks .finished) ∧
      (start.run destroyedEarly).pool.submit true = .error .poolDestroyed := by
  intro start
  have hnew : WorkerPool.new "w" 1 = .ok start.pool := by cbv
  obtain ⟨⟨-, hcounted, -⟩, ⟨hqueue, -, -⟩, -, -, hdestroyed⟩ :=
    tasks_accounted hnew destroyedEarly
  have hd : (start.run destroyedEarly).demolition = .ended false := by decide +kernel
  have hwaiters : (start.run destroyedEarly).waiters = [⟨true, .done true⟩] := by decide +kernel
  have hentered : (start.log destroyedEarly).tasks .entered = [true, false] := by decide +kernel
  have hempty : (start.run destroyedEarly).pool.queue = [] := by decide +kernel
  have hunfinished : (start.run destroyedEarly).pool.unfinished = [] := by decide +kernel
  refine ⟨hd, hwaiters, hentered, ?_, ?_, ?_⟩
  · rw [hempty, List.append_nil] at hqueue
    exact hqueue.symm.trans hentered
  · rw [hunfinished, List.append_nil] at hcounted
    exact hcounted
  · have hne : (start.run destroyedEarly).demolition ≠ .none := by simp [hd]
    have hsubmit := (hdestroyed hne [] true).1
    rwa [run_nil] at hsubmit

end Workplace

end ProvenanceRelay
