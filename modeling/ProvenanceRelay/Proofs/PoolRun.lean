import Mathlib
import ProvenanceRelay.WorkerPool.Workplace

/-!
What a pool of workers does with its tasks.

The log of a run has every task when it is counted, when it enters the queue, when a worker takes it
and when the worker has finished with it. The count is the number of tasks that have been counted
and are yet to be finished with, and the tasks are taken in the order in which they have entered.
-/

namespace ProvenanceRelay

def Worker.task? {τ : Type} : Worker τ → Option τ
  | .running t | .ended t => some t
  | .idle | .gone => none

namespace WorkerPool

variable {τ : Type}

/-! ### The log -/

inductive Fate where
  | counted
  | entered
  /-- Could not enter the queue, and is counted no more. -/
  | refused
  | taken
  | finished
  deriving DecidableEq

abbrev Log (τ : Type) := List (Fate × τ)

def Log.tasks (f : Fate) (l : Log τ) : List τ :=
  l.filterMap fun x => if x.1 = f then some x.2 else none

/-- What a step does with a task, if it does anything. -/
def note? (p : WorkerPool τ) : Event τ → Option (Fate × τ)
  | .offer t => if p.accepting then some (.counted, t) else none
  | .enqueue i => p.offered[i]?.map fun t => (if p.isDeserted then .refused else .entered, t)
  | .take w =>
    match p.workers[w]?, p.queue with
    | some .idle, t :: _ => some (.taken, t)
    | _, _ => none
  | .uncount w =>
    match p.workers[w]? with
    | some (.ended t) => some (.finished, t)
    | _ => none
  | .finish _ _ | .close | .leave _ => none

def log (p : WorkerPool τ) : List (Event τ) → Log τ
  | [] => []
  | e :: es => (p.note? e).toList ++ log (p.step e) es

lemma log_append (p : WorkerPool τ) (es fs : List (Event τ)) :
    p.log (es ++ fs) = p.log es ++ (p.run es).log fs := by
  induction es generalizing p with
  | nil => rfl
  | cons e es ih => rw [List.cons_append, log, ih, ← List.append_assoc]; rfl

lemma Log.tasks_append (f : Fate) (l m : Log τ) : (l ++ m).tasks f = l.tasks f ++ m.tasks f :=
  List.filterMap_append

/-- The tasks that are counted: being submitted, in the queue, or with a worker. -/
def unfinished (p : WorkerPool τ) : List τ :=
  p.offered ++ p.queue ++ p.workers.filterMap Worker.task?

/-! ### Steps -/

/-- Where a step leads, and what it does with a task. -/
inductive Move (p : WorkerPool τ) : Option (Fate × τ) → WorkerPool τ → Prop
  | rest : Move p none p
  | offer (t : τ) (h : p.accepting = true) :
      Move p (some (.counted, t)) { p with offered := p.offered ++ [t], pending := p.pending + 1 }
  | enter {i : ℕ} {t : τ} (h : p.offered[i]? = some t) (hleft : p.isDeserted = false) :
      Move p (some (.entered, t))
        { p with offered := p.offered.eraseIdx i, queue := p.queue ++ [t] }
  | refuse {i : ℕ} {t : τ} (h : p.offered[i]? = some t) (hleft : p.isDeserted = true) :
      Move p (some (.refused, t))
        { p with offered := p.offered.eraseIdx i, pending := p.pending - 1 }
  | take {w : ℕ} {t : τ} {q : List τ} (h : p.workers[w]? = some .idle) (hq : p.queue = t :: q) :
      Move p (some (.taken, t)) { p with workers := p.workers.set w (.running t), queue := q }
  | finish {w : ℕ} {t : τ} (h : p.workers[w]? = some (.running t)) :
      Move p none { p with workers := p.workers.set w (.ended t) }
  | uncount {w : ℕ} {t : τ} (h : p.workers[w]? = some (.ended t)) :
      Move p (some (.finished, t))
        { p with workers := p.workers.set w .idle, pending := p.pending - 1 }
  | close (h : p.offered = []) : Move p none { p with accepting := false }
  | leave {w : ℕ} (h : p.workers[w]? = some .idle) (hq : p.queue = [])
      (hclosed : p.accepting = false) : Move p none { p with workers := p.workers.set w .gone }

lemma move (p : WorkerPool τ) (e : Event τ) : p.Move (p.note? e) (p.step e) := by
  cases e with
  | offer t =>
    by_cases h : p.accepting = true
    · simpa [note?, step, WorkerPool.offer, h, Except.toOption] using Move.offer t h
    · simpa [note?, step, WorkerPool.offer, h, Except.toOption] using Move.rest
  | enqueue i =>
    cases h : p.offered[i]? with
    | none => simpa [note?, step, enqueue, h] using Move.rest
    | some t =>
      cases hleft : p.isDeserted with
      | false => simpa [note?, step, enqueue, h, hleft] using Move.enter h hleft
      | true => simpa [note?, step, enqueue, h, hleft] using Move.refuse h hleft
  | take w =>
    cases hw : p.workers[w]? with
    | none => simpa [note?, step, WorkerPool.take, hw] using Move.rest
    | some x =>
      cases x with
      | idle =>
        cases hq : p.queue with
        | nil => simpa [note?, step, WorkerPool.take, hw, hq] using Move.rest
        | cons t q => simpa [note?, step, WorkerPool.take, hw, hq] using Move.take hw hq
      | _ => simpa [note?, step, WorkerPool.take, hw] using Move.rest
  | finish w how =>
    unfold note? step WorkerPool.finish
    dsimp only
    split
    · next h => exact .finish h
    · exact .rest
  | uncount w =>
    cases hw : p.workers[w]? with
    | none => simpa [note?, step, WorkerPool.uncount, hw] using Move.rest
    | some x =>
      cases x with
      | ended t => simpa [note?, step, WorkerPool.uncount, hw] using Move.uncount hw
      | _ => simpa [note?, step, WorkerPool.uncount, hw] using Move.rest
  | close =>
    unfold note? step WorkerPool.close
    dsimp only
    split
    · next h => exact .close (List.isEmpty_iff.mp h)
    · exact .rest
  | leave w =>
    unfold note? step WorkerPool.leave
    dsimp only
    split
    · next h hq =>
      split
      · exact .rest
      · next hclosed => exact .leave h hq (by simpa using hclosed)
    · exact .rest

lemma run_inv {P : WorkerPool τ → Prop} (hstep : ∀ p e, P p → P (p.step e)) {p : WorkerPool τ}
    (h : P p) (es : List (Event τ)) : P (p.run es) := by
  induction es generalizing p with
  | nil => exact h
  | cons e es ih => exact ih (hstep p e h)

/-! ### First in, first out -/

lemma queue_step (p : WorkerPool τ) (e : Event τ) :
    p.queue ++ Log.tasks .entered (p.note? e).toList =
      Log.tasks .taken (p.note? e).toList ++ (p.step e).queue := by
  have hmove := p.move e
  generalize p.note? e = n, p.step e = q at hmove ⊢
  cases hmove with
  | take h hq => simp [Log.tasks, hq]
  | _ => simp [Log.tasks]

lemma queue_run (p : WorkerPool τ) (es : List (Event τ)) :
    p.queue ++ (p.log es).tasks .entered = (p.log es).tasks .taken ++ (p.run es).queue := by
  induction es generalizing p with
  | nil => simp [log, Log.tasks]
  | cons e es ih =>
    rw [log, Log.tasks_append, Log.tasks_append, run_cons, ← List.append_assoc, p.queue_step e,
      List.append_assoc, ih, List.append_assoc]

/-! ### The count -/

lemma perm_cons_eraseIdx {α : Type} {l : List α} {i : ℕ} {a : α} (h : l[i]? = some a) :
    l.Perm (a :: l.eraseIdx i) := by
  obtain ⟨hi, rfl⟩ := List.getElem?_eq_some_iff.mp h
  exact (List.getElem_cons_eraseIdx_perm hi).symm

/-- The tasks in hand when a worker changes. -/
lemma count_task_set [DecidableEq τ] {ws : List (Worker τ)} {w : ℕ} {x : Worker τ}
    (h : ws[w]? = some x) (y : Worker τ) (t : τ) :
    ((ws.set w y).filterMap Worker.task?).count t + x.task?.toList.count t =
      (ws.filterMap Worker.task?).count t + y.task?.toList.count t := by
  obtain ⟨hw, -⟩ := List.getElem?_eq_some_iff.mp h
  have hold := ((perm_cons_eraseIdx h).filterMap Worker.task?).count_eq t
  have hnew := ((List.set_perm_cons_eraseIdx hw y).filterMap Worker.task?).count_eq t
  have hcons : ∀ (z : Worker τ) (zs : List (Worker τ)),
      ((z :: zs).filterMap Worker.task?).count t =
        z.task?.toList.count t + (zs.filterMap Worker.task?).count t := by
    intro z zs
    cases hz : z.task? <;> simp [hz, List.count_cons, Nat.add_comm]
  rw [hold, hnew, hcons, hcons]
  omega

lemma unfinished_step (p : WorkerPool τ) (e : Event τ) :
    (p.unfinished ++ Log.tasks .counted (p.note? e).toList).Perm
      (Log.tasks .finished (p.note? e).toList ++ Log.tasks .refused (p.note? e).toList ++
        (p.step e).unfinished) := by
  classical
  have hmove := p.move e
  generalize p.note? e = n, p.step e = q at hmove ⊢
  refine List.perm_iff_count.mpr fun a => ?_
  cases hmove with
  | rest | close => simp [Log.tasks, unfinished]
  | offer t h =>
    simp [Log.tasks, unfinished, List.count_cons]
    omega
  | enter h hleft =>
    have herase := (perm_cons_eraseIdx h).count_eq a
    simp [Log.tasks, unfinished, List.count_cons] at herase ⊢
    omega
  | refuse h hleft =>
    have herase := (perm_cons_eraseIdx h).count_eq a
    simp [Log.tasks, unfinished, List.count_cons] at herase ⊢
    omega
  | @take w t q h hq =>
    have hset := count_task_set h (.running t) a
    simp [Log.tasks, unfinished, List.count_cons, Worker.task?, hq] at hset ⊢
    omega
  | @finish w t h =>
    have hset := count_task_set h (.ended t) a
    simp [Log.tasks, unfinished, Worker.task?] at hset ⊢
    omega
  | uncount h =>
    have hset := count_task_set h .idle a
    simp [Log.tasks, unfinished, List.count_cons, Worker.task?] at hset ⊢
    omega
  | leave h hq hclosed =>
    have hset := count_task_set h .gone a
    simp [Log.tasks, unfinished, Worker.task?] at hset ⊢
    omega

/-- Tasks are counted before they enter the queue, and until then they are being submitted. -/
lemma offered_step (p : WorkerPool τ) (e : Event τ) :
    (p.offered ++ Log.tasks .counted (p.note? e).toList).Perm
      (Log.tasks .entered (p.note? e).toList ++ Log.tasks .refused (p.note? e).toList ++
        (p.step e).offered) := by
  have hmove := p.move e
  generalize p.note? e = n, p.step e = q at hmove ⊢
  cases hmove with
  | enter h hleft => simpa [Log.tasks] using perm_cons_eraseIdx h
  | refuse h hleft => simpa [Log.tasks] using perm_cons_eraseIdx h
  | _ => simp [Log.tasks]

lemma perm_run {f : WorkerPool τ → List τ} {gain loss other : Fate}
    (hstep : ∀ p e, (f p ++ Log.tasks gain (note? p e).toList).Perm
      (Log.tasks loss (note? p e).toList ++ Log.tasks other (note? p e).toList ++ f (p.step e)))
    (p : WorkerPool τ) (es : List (Event τ)) :
    (f p ++ (p.log es).tasks gain).Perm
      ((p.log es).tasks loss ++ (p.log es).tasks other ++ f (p.run es)) := by
  classical
  induction es generalizing p with
  | nil => simp [log, Log.tasks]
  | cons e es ih =>
    refine List.perm_iff_count.mpr fun a => ?_
    have hone := (hstep p e).count_eq a
    have hrest := (ih (p.step e)).count_eq a
    simp only [log, Log.tasks_append, run_cons, List.count_append] at hone hrest ⊢
    omega

/-- The count is the number of unfinished tasks. -/
def Balanced (p : WorkerPool τ) : Prop := p.pending = p.unfinished.length

/-- **The count never goes below zero**: a step counts as many tasks less as it says. -/
lemma Balanced.pending_step {p : WorkerPool τ} (h : p.Balanced) (e : Event τ) :
    (p.step e).pending + (Log.tasks .finished (p.note? e).toList).length +
        (Log.tasks .refused (p.note? e).toList).length =
      p.pending + (Log.tasks .counted (p.note? e).toList).length := by
  have hmove := p.move e
  generalize p.note? e = n, p.step e = q at hmove ⊢
  have hpositive : ∀ t ∈ p.unfinished, 1 ≤ p.pending := by
    intro t ht
    rw [h]
    exact List.length_pos_of_mem ht
  cases hmove with
  | @refuse i t hi hleft =>
    have hone := hpositive t (by simp [unfinished, List.mem_of_getElem? hi])
    simp [Log.tasks]
    omega
  | @uncount w t hw =>
    have hmem : t ∈ p.workers.filterMap Worker.task? :=
      List.mem_filterMap.mpr ⟨_, List.mem_of_getElem? hw, rfl⟩
    have hone := hpositive t (by simp [unfinished, hmem])
    simp [Log.tasks]
    omega
  | _ => simp [Log.tasks]

lemma Balanced.step {p : WorkerPool τ} (h : p.Balanced) (e : Event τ) : (p.step e).Balanced := by
  have hpending := h.pending_step e
  have hlength := (p.unfinished_step e).length_eq
  simp only [List.length_append] at hlength
  unfold Balanced at h ⊢
  omega

lemma Balanced.run {p : WorkerPool τ} (h : p.Balanced) (es : List (Event τ)) :
    (p.run es).Balanced :=
  run_inv (fun _ e hp => hp.step e) h es

/-! ### Workers that are left -/

/-- No worker goes from a pool that still takes tasks or has some in its queue. -/
structure Manned (p : WorkerPool τ) : Prop where
  workers : p.workers ≠ []
  accepting : p.accepting = true → .gone ∉ p.workers
  closed : p.accepting = false → p.offered = []
  queue : .gone ∈ p.workers → p.queue = []

namespace Manned

variable {p : WorkerPool τ}

lemma mem_of_set {w : ℕ} {x : Worker τ} (hx : x ≠ .gone)
    (hmem : .gone ∈ p.workers.set w x) : .gone ∈ p.workers :=
  (List.mem_or_eq_of_mem_set hmem).resolve_right fun h => hx h.symm

lemma accepting_of_offered (h : p.Manned) {i : ℕ} {t : τ} (ht : p.offered[i]? = some t) :
    p.accepting = true := by
  by_contra hclosed
  have hnil := h.closed (by simpa using hclosed)
  simp [hnil] at ht

lemma isDeserted_of_accepting (h : p.Manned) (haccepting : p.accepting = true) :
    p.isDeserted = false := by
  obtain ⟨x, xs, hxs⟩ := List.exists_cons_of_ne_nil h.workers
  have hgone := h.accepting haccepting
  rw [hxs] at hgone
  cases x with
  | gone => simp at hgone
  | _ => simp [isDeserted, hxs]

lemma step (h : p.Manned) (e : Event τ) : (p.step e).Manned := by
  have hmove := p.move e
  generalize p.note? e = n, p.step e = q at hmove ⊢
  cases hmove with
  | rest => exact h
  | offer t haccepting =>
    exact ⟨h.workers, h.accepting, fun hclosed => by simp [haccepting] at hclosed, h.queue⟩
  | enter hi hleft =>
    have haccepting := h.accepting_of_offered hi
    exact ⟨h.workers, h.accepting, fun hclosed => by simp [haccepting] at hclosed,
      fun hgone => (h.accepting haccepting hgone).elim⟩
  | refuse hi hleft =>
    -- nobody is refused while workers are left
    have hmanned := h.isDeserted_of_accepting (h.accepting_of_offered hi)
    simp [hleft] at hmanned
  | take hw hq =>
    refine ⟨by simpa using h.workers, fun ha hgone => h.accepting ha (mem_of_set (by simp) hgone),
      h.closed, fun hgone => ?_⟩
    simp [h.queue (mem_of_set (by simp) hgone)] at hq
  | finish hw =>
    exact ⟨by simpa using h.workers, fun ha hgone => h.accepting ha (mem_of_set (by simp) hgone),
      h.closed, fun hgone => h.queue (mem_of_set (by simp) hgone)⟩
  | uncount hw =>
    exact ⟨by simpa using h.workers, fun ha hgone => h.accepting ha (mem_of_set (by simp) hgone),
      h.closed, fun hgone => h.queue (mem_of_set (by simp) hgone)⟩
  | close hoffered =>
    exact ⟨h.workers, fun ha => by simp at ha, fun _ => hoffered, h.queue⟩
  | leave hw hq hclosed =>
    exact ⟨by simpa using h.workers, fun ha => by simp [hclosed] at ha, h.closed, fun _ => hq⟩

lemma run (h : p.Manned) (es : List (Event τ)) : (p.run es).Manned :=
  run_inv (fun _ e hp => hp.step e) h es

/-- Every task that is counted finds a worker left. -/
lemma refused_eq_nil (h : p.Manned) (es : List (Event τ)) : (p.log es).tasks .refused = [] := by
  induction es generalizing p with
  | nil => rfl
  | cons e es ih =>
    rw [log, Log.tasks_append, ih (h.step e), List.append_nil]
    have hmove := p.move e
    generalize p.note? e = n, p.step e = q at hmove ⊢
    cases hmove with
    | refuse hi hleft =>
      have hmanned := h.isDeserted_of_accepting (h.accepting_of_offered hi)
      simp [hleft] at hmanned
    | _ => simp [Log.tasks]

/-- A pool with workers takes a task: it is counted and enters the queue. -/
lemma submit (h : p.Manned) (haccepting : p.accepting = true) (hoffered : p.offered = []) (t : τ) :
    p.submit t = .ok (p.run [.offer t, .enqueue 0]) := by
  have hmanned := h.isDeserted_of_accepting haccepting
  unfold isDeserted at hmanned
  simp [WorkerPool.submit, WorkerPool.step, offer, enqueue, isDeserted, haccepting, hoffered,
    hmanned, Bind.bind, Except.bind, Pure.pure, Except.pure, Except.toOption]

lemma run_offer_enqueue (h : p.Manned) (haccepting : p.accepting = true)
    (hoffered : p.offered = []) (t : τ) :
    p.run [.offer t, .enqueue 0] =
      { p with queue := p.queue ++ [t], pending := p.pending + 1 } := by
  have hmanned := h.isDeserted_of_accepting haccepting
  unfold isDeserted at hmanned
  simp [WorkerPool.step, offer, enqueue, isDeserted, haccepting, hoffered, hmanned,
    Except.toOption]

end Manned

/-- A pool that takes no more tasks never takes any again. -/
lemma accepting_run {p : WorkerPool τ} (h : p.accepting = false) (es : List (Event τ)) :
    (p.run es).accepting = false := by
  refine run_inv (P := fun p => p.accepting = false) (fun p e hp => ?_) h es
  have hmove := p.move e
  generalize p.note? e = n, p.step e = q at hmove ⊢
  cases hmove <;> first | exact hp | rfl

lemma new_eq_ok {stem : String} {size : ℕ} {p : WorkerPool τ} (h : new stem size = .ok p) :
    0 < size ∧ p = { workers := List.replicate size .idle } := by
  unfold new at h
  split at h
  · cases h
  · next hsize =>
    split at h
    · cases h
    · split at h
      · cases h
      · exact ⟨Nat.pos_of_ne_zero hsize, (Except.ok.inj h).symm⟩

lemma filterMap_task?_replicate (n : ℕ) :
    (List.replicate n (Worker.idle (τ := τ))).filterMap Worker.task? = [] := by
  simp [List.filterMap_eq_nil_iff, Worker.task?]

lemma balanced_new (n : ℕ) : Balanced (τ := τ) { workers := List.replicate n .idle } := by
  simp [Balanced, unfinished, filterMap_task?_replicate]

lemma manned_new {n : ℕ} (h : 0 < n) : Manned (τ := τ) { workers := List.replicate n .idle } where
  workers := by simp; omega
  accepting _ hgone := by simp at hgone
  closed h := by simp at h
  queue _ := rfl

end WorkerPool

end ProvenanceRelay
