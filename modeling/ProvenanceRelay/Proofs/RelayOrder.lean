import Mathlib
import ProvenanceRelay.Proofs.RelayMoves

/-!
What holds of a relay at every time.

The pool's count is right and its workers are at hand. A reader that has not gone is with the
registering thread, in the queue or with a worker. The running flag is set until the relay begins to
stop. Once the pool has been found idle no task comes in any more, and the workers that are joined
have all left.
-/

namespace ProvenanceRelay

namespace WorkerPool

variable {τ : Type} {p : WorkerPool τ}

lemma mem_set_of_mem {α : Type} {l : List α} {w : ℕ} {x y z : α} (hx : x ∈ l)
    (hy : l[w]? = some y) (hne : x ≠ y) : x ∈ l.set w z := by
  obtain ⟨j, hj⟩ := List.mem_iff_getElem?.mp hx
  have hjw : w ≠ j := by
    rintro rfl
    exact hne (Option.some.inj (hj.symm.trans hy))
  exact List.mem_iff_getElem?.mpr ⟨j, by rw [List.getElem?_set_ne hjw, hj]⟩

lemma eq_gone_of_isDeserted (h : p.isDeserted = true) {w : ℕ} {x : Worker τ}
    (hx : p.workers[w]? = some x) : x = .gone := by
  have hgone := List.all_eq_true.mp h x (List.mem_of_getElem? hx)
  cases x <;> simp_all

/-- A task is with the pool as long as it is in the queue or with a worker that runs it. -/
def Holds (p : WorkerPool τ) (t : τ) : Prop := t ∈ p.queue ∨ .running t ∈ p.workers

lemma Holds.finish {t u : τ} (h : p.Holds t) {w : ℕ} (hw : p.workers[w]? = some (.running u))
    (hne : t ≠ u) : (p.finish w).Holds t := by
  rw [finish_of_running hw]
  exact h.imp_right fun hworker => mem_set_of_mem hworker hw (by simpa using hne)

lemma Holds.close {t : τ} (h : p.Holds t) : p.close.Holds t := by
  unfold WorkerPool.close
  split <;> exact h

/-- A worker has taken a task, is done with one, or has left. -/
structure Worked (p q : WorkerPool τ) : Prop where
  offered : q.offered = p.offered
  accepting : q.accepting = p.accepting
  pending : q.pending ≤ p.pending
  holds : ∀ t, p.Holds t → q.Holds t
  deserted : p.isDeserted = true → q = p

lemma Worked.refl : p.Worked p := ⟨rfl, rfl, le_rfl, fun _ => id, fun _ => rfl⟩

lemma Worked.take (w : ℕ) : p.Worked (p.take w) := by
  unfold WorkerPool.take
  split
  · next u q hw hq =>
    refine ⟨rfl, rfl, le_rfl, fun t ht => ?_, fun h => by cases eq_gone_of_isDeserted h hw⟩
    rcases ht with hqueue | hworker
    · rw [hq] at hqueue
      rcases List.mem_cons.mp hqueue with rfl | hrest
      · exact .inr (List.mem_set (List.getElem?_eq_some_iff.mp hw).1 _)
      · exact .inl hrest
    · exact .inr (mem_set_of_mem hworker hw (by simp))
  · exact .refl

lemma Worked.uncount (w : ℕ) : p.Worked (p.uncount w) := by
  unfold WorkerPool.uncount
  split
  · next hw =>
    exact ⟨rfl, rfl, Nat.sub_le _ _,
      fun t ht => ht.imp_right fun hworker => mem_set_of_mem hworker hw (by simp),
      fun h => by cases eq_gone_of_isDeserted h hw⟩
  · exact .refl

lemma Worked.leave (w : ℕ) : p.Worked (p.leave w) := by
  unfold WorkerPool.leave
  split
  · next hw _ =>
    split
    · exact .refl
    · exact ⟨rfl, rfl, le_rfl,
        fun t ht => ht.imp_right fun hworker => mem_set_of_mem hworker hw (by simp),
        fun h => by cases eq_gone_of_isDeserted h hw⟩
  · exact .refl

end WorkerPool

namespace Reader

/-- Only a reader that goes closes its channel. -/
lemma stage_of_close {policy : Policy} {x : Reader} {n : News}
    (h : (x.step policy n).2 = some .close) : (x.step policy n).1.stage = .gone := by
  revert h
  unfold step
  split
  · unfold move
    split <;> split <;> (try split) <;> simp
  all_goals simp

end Reader

namespace Relay

variable {σ : Type}

namespace Phase

def isStopping : Phase → Bool
  | .submitting _ | .awaiting _ | .writing | .up => false
  | _ => true

def isClosed : Phase → Bool
  | .joining _ _ | .releasing _ _ | .down _ _ => true
  | _ => false

def isJoined : Phase → Bool
  | .releasing _ _ | .down _ _ => true
  | _ => false

/-- Whether the pool was idle in time, once it is waited for no more. -/
def exited? : Phase → Option Bool
  | .counting exited | .destroying exited _ | .joining exited _ | .releasing exited _
  | .down exited _ => some exited
  | _ => none

end Phase

lemma Onward.failed {r r' : Relay σ} (h : r.Onward r')
    (hfailed : r.failure ≠ none → r.phase.isStopping = true) :
    r'.failure ≠ none → r'.phase.isStopping = true := by
  intro hfailure
  cases h with
  | submit hphase | submitted hphase | hear hphase | heard hphase | unasked hphase | write hphase =>
    have hstopping := hfailed hfailure
    rw [hphase] at hstopping
    cases hstopping
  | _ => rfl

structure Orderly (r : Relay σ) : Prop where
  balanced : r.pool.Balanced
  manned : r.pool.Manned
  offered : r.pool.offered = []
  accepting : r.pool.accepting = !r.phase.isClosed
  running : r.running = !r.phase.isStopping
  failed : r.failure ≠ none → r.phase.isStopping = true
  placed : ∀ i x, r.readers[i]? = some x → x.stage ≠ .gone →
    (∃ next ≤ i, r.phase = .submitting next) ∨ r.pool.Holds i
  finished : r.phase.exited? = some true → r.pool.pending = 0
  deserted : r.phase.exited? = some true → r.phase.isJoined = true → r.pool.isDeserted = true

namespace Orderly

variable {r r' : Relay σ}

lemma not_failed (h : r.Orderly) (hphase : r.phase.isStopping = false) : r.failure = none := by
  by_contra hfailure
  simp [h.failed hfailure] at hphase

lemma work (h : r.Orderly) {e : WorkerPool.Event ℕ} (hwork : r.pool.Worked (r.pool.step e)) :
    Orderly { r with pool := r.pool.step e } where
  balanced := h.balanced.step e
  manned := h.manned.step e
  offered := hwork.offered.trans h.offered
  accepting := hwork.accepting.trans h.accepting
  running := h.running
  failed := h.failed
  placed i x hx hstage := (h.placed i x hx hstage).imp_right (hwork.holds i)
  finished hexited := Nat.le_zero.mp (hwork.pending.trans (h.finished hexited).le)
  deserted hexited hjoined := by
    have hgone := h.deserted hexited hjoined
    show (r.pool.step e).isDeserted = true
    rw [hwork.deserted hgone, hgone]

lemma goto (h : r.Orderly) (hpool : r'.pool = r.pool) (hreaders : r'.readers = r.readers)
    (hclosed : r'.phase.isClosed = r.phase.isClosed) (hrunning : r'.running = !r'.phase.isStopping)
    (hfailed : r'.failure ≠ none → r'.phase.isStopping = true)
    (hsubmitted : ∀ next, r.phase = .submitting next → r.readers.length ≤ next)
    (hfinished : r'.phase.exited? = some true → r.pool.pending = 0)
    (hdeserted : r'.phase.exited? = some true → r'.phase.isJoined = true →
      r.pool.isDeserted = true) : r'.Orderly where
  balanced := hpool ▸ h.balanced
  manned := hpool ▸ h.manned
  offered := hpool ▸ h.offered
  accepting := by rw [hpool, hclosed, h.accepting]
  running := hrunning
  failed := hfailed
  placed i x hx hstage := by
    rw [hreaders] at hx
    rw [hpool]
    rcases h.placed i x hx hstage with ⟨next, hle, hphase⟩ | hholds
    · have hlt := (List.getElem?_eq_some_iff.mp hx).1
      have hge := hsubmitted next hphase
      omega
    · exact .inr hholds
  finished hexited := hpool ▸ hfinished hexited
  deserted hexited hjoined := hpool ▸ hdeserted hexited hjoined

lemma main (h : r.Orderly) (honward : r.Onward r') : r'.Orderly := by
  have hfinished := h.finished
  have hdeserted := h.deserted
  have hrunning := h.running
  have hfailed := honward.failed h.failed
  cases honward with
  | @submit next pool hphase hlt hsubmit =>
    have haccepting : r.pool.accepting = true := by simp [h.accepting, hphase, Phase.isClosed]
    have hrun := h.manned.run_offer_enqueue haccepting h.offered next
    obtain rfl : r.pool.run [.offer next, .enqueue 0] = pool := by
      rw [h.manned.submit haccepting h.offered] at hsubmit
      exact Except.ok.inj hsubmit
    refine ⟨h.balanced.run _, h.manned.run _, ?_, ?_, ?_, hfailed, fun i x hx hstage => ?_, ?_, ?_⟩
    · simpa [hrun] using h.offered
    · simpa [hrun, Phase.isClosed] using haccepting
    · simpa [hphase, Phase.isStopping] using hrunning
    · -- a reader is to come later, or comes now, or has come before
      rcases h.placed i x hx hstage with ⟨m, hle, hm⟩ | hholds
      · obtain rfl : next = m := by simpa [hphase] using hm
        rcases hle.lt_or_eq with hlater | rfl
        · exact .inl ⟨_, hlater, rfl⟩
        · exact .inr (.inl (by simp [hrun]))
      · refine .inr ?_
        rw [hrun]
        exact hholds.imp_left fun hqueue => List.mem_append_left _ hqueue
    · simp [Phase.exited?]
    · simp [Phase.exited?]
  | unsubmitted hphase hlt hsubmit =>
    -- an open pool with workers refuses nobody
    have haccepting : r.pool.accepting = true := by simp [h.accepting, hphase, Phase.isClosed]
    rw [h.manned.submit haccepting h.offered] at hsubmit
    cases hsubmit
  | @submitted next hphase hge =>
    refine h.goto rfl rfl ?_ ?_ hfailed (fun m hm => ?_) ?_ ?_
    · simp [hphase, Phase.isClosed]
    · simpa [hphase, Phase.isStopping] using hrunning
    · obtain rfl : next = m := by simpa [hphase] using hm
      exact hge
    · simp [Phase.exited?]
    · simp [Phase.exited?]
  | @destroy exited lingering hphase =>
    have hclose : r.pool.close = { r.pool with accepting := false } := by
      simp [WorkerPool.close, h.offered]
    refine ⟨h.balanced.step .close, h.manned.step .close, ?_, ?_, ?_, hfailed,
      fun i x hx hstage => ?_, ?_, ?_⟩
    · simpa [hclose] using h.offered
    · simp [hclose, Phase.isClosed]
    · simpa [hphase, Phase.isStopping] using hrunning
    · rcases h.placed i x hx hstage with ⟨m, -, hm⟩ | hholds
      · simp [hphase] at hm
      · exact .inr hholds.close
    · simpa [hphase, hclose, Phase.exited?] using hfinished
    · simp [Phase.isJoined]
  | hear hphase | heard hphase | unasked hphase | write hphase | busy hphase =>
    -- the relay goes on without stopping
    refine h.goto rfl rfl ?_ ?_ hfailed ?_ ?_ ?_
    · simp [hphase, Phase.isClosed]
    · simpa [hphase, Phase.isStopping] using hrunning
    · simp [hphase]
    · simp [Phase.exited?]
    · simp [Phase.exited?]
  | hearRefused hphase | missed hphase | overdue hphase | unwritten hphase | stop hphase =>
    -- from here on the relay stops, and the flag is cleared
    refine h.goto rfl rfl ?_ rfl hfailed ?_ ?_ ?_
    · simp [hphase, fail, halt, Phase.isClosed]
    · simp [hphase]
    · simp [fail, halt, Phase.exited?]
    · simp [fail, halt, Phase.exited?]
  | idle hphase hidle =>
    refine h.goto rfl rfl ?_ ?_ hfailed ?_ ?_ ?_
    · simp [hphase, Phase.isClosed]
    · simpa [hphase, Phase.isStopping] using hrunning
    · simp [hphase]
    · exact fun _ => by simpa [WorkerPool.isIdle] using hidle
    · simp [Phase.isJoined]
  | count hphase =>
    refine h.goto rfl rfl ?_ ?_ hfailed ?_ ?_ ?_
    · simp [hphase, Phase.isClosed]
    · simpa [hphase, Phase.isStopping] using hrunning
    · simp [hphase]
    · simpa [hphase, Phase.exited?] using hfinished
    · simp [Phase.isJoined]
  | join hphase hleft =>
    -- the workers have left, unless some were given up
    refine h.goto rfl rfl ?_ ?_ hfailed ?_ ?_ ?_
    · simp [hphase, Phase.isClosed]
    · simpa [hphase, Phase.isStopping] using hrunning
    · simp [hphase]
    · simpa [hphase, Phase.exited?] using hfinished
    · intro hexited hjoined
      have hzero : r.pool.pending = 0 := hfinished (by simpa [hphase, Phase.exited?] using hexited)
      exact hleft.resolve_right fun hne => hne hzero
  | release hphase =>
    refine h.goto rfl rfl ?_ ?_ hfailed ?_ ?_ ?_
    · simp [hphase, Phase.isClosed]
    · simpa [hphase, Phase.isStopping] using hrunning
    · simp [hphase]
    · simpa [hphase, Phase.exited?] using hfinished
    · simpa [hphase, Phase.exited?, Phase.isJoined] using hdeserted

lemma turn (h : r.Orderly) {w i : ℕ} {x : Reader} (hw : r.pool.workers[w]? = some (.running i))
    (hx : r.readers[i]? = some x) (policy : Policy) (n : Reader.News) :
    Orderly ({ r with readers := r.readers.set i (x.step policy n).1 }.apply w
      (x.step policy n).2) := by
  have hlt := (List.getElem?_eq_some_iff.mp hx).1
  have hmanned : r.pool.isDeserted = false := by
    by_contra hgone
    cases WorkerPool.eq_gone_of_isDeserted (by simpa using hgone) hw
  -- only the reader that goes on is another one
  have hother : ∀ j y, (r.readers.set i (x.step policy n).1)[j]? = some y → j ≠ i →
      r.readers[j]? = some y := by
    intro j y hy hji
    rwa [List.getElem?_set_ne hji.symm] at hy
  have hplaced : ∀ j y, (r.readers.set i (x.step policy n).1)[j]? = some y → y.stage ≠ .gone →
      (∃ next ≤ j, r.phase = .submitting next) ∨ r.pool.Holds j := by
    intro j y hy hstage
    rcases eq_or_ne j i with rfl | hji
    · exact .inr (.inr (List.mem_of_getElem? hw))
    · exact h.placed j y (hother j y hy hji) hstage
  cases heffect : (x.step policy n).2 with
  | none =>
    exact ⟨h.balanced, h.manned, h.offered, h.accepting, h.running, h.failed, hplaced, h.finished,
      h.deserted⟩
  | some effect =>
    cases effect with
    | act a =>
      exact ⟨h.balanced, h.manned, h.offered, h.accepting, h.running, h.failed, hplaced, h.finished,
        h.deserted⟩
    | tell a =>
      exact ⟨h.balanced, h.manned, h.offered, h.accepting, h.running, h.failed, hplaced, h.finished,
        h.deserted⟩
    | close =>
      have hfinish := WorkerPool.finish_of_running hw
      refine ⟨h.balanced.step (.finish w .returned), h.manned.step (.finish w .returned), ?_, ?_,
        h.running, h.failed, fun j y hy hstage => ?_, ?_, fun hexited hjoined => ?_⟩
      · simpa [apply, hfinish] using h.offered
      · simpa [apply, hfinish] using h.accepting
      · -- whoever has not gone is another reader, which is where it was
        have hji : j ≠ i := by
          rintro rfl
          obtain rfl : (x.step policy n).1 = y := by simpa [apply, hlt] using hy
          exact hstage (Reader.stage_of_close heffect)
        exact (hplaced j y hy hstage).imp_right fun hholds => hholds.finish hw hji
      · simpa [apply, hfinish] using h.finished
      · -- a worker is still at work
        simp [h.deserted hexited hjoined] at hmanned

lemma step (h : r.Orderly) (e : Event) : (r.step e).Orderly := by
  have hmove := r.move e
  generalize r.turn? e = t, r.step e = s at hmove ⊢
  cases hmove with
  | rest => exact h
  | main honward => exact h.main honward
  | take w => exact h.work (e := .take w) (.take w)
  | uncount w => exact h.work (e := .uncount w) (.uncount w)
  | leave w => exact h.work (e := .leave w) (.leave w)
  | turn n hw hx => exact h.turn hw hx _ _

lemma run (h : r.Orderly) (es : List Event) : (r.run es).Orderly :=
  run_inv (fun _ e hr => hr.step e) h es

lemma unfinished_eq_nil (h : r.Orderly) (hpending : r.pool.pending = 0) :
    r.pool.unfinished = [] :=
  List.eq_nil_of_length_eq_zero (h.balanced.symm.trans hpending)

lemma not_holds (h : r.Orderly) (hpending : r.pool.pending = 0) (i : ℕ) : ¬ r.pool.Holds i := by
  have hnil := h.unfinished_eq_nil hpending
  rintro (hqueue | hworker)
  · have hmem : i ∈ r.pool.unfinished := by simp [WorkerPool.unfinished, hqueue]
    simp [hnil] at hmem
  · have hmem : i ∈ r.pool.workers.filterMap Worker.task? :=
      List.mem_filterMap.mpr ⟨_, hworker, rfl⟩
    have hmem : i ∈ r.pool.unfinished := by simp [WorkerPool.unfinished, hmem]
    simp [hnil] at hmem

/-- Once all readers have been handed over and the pool is idle, every reader has gone. -/
lemma gone_of_idle (h : r.Orderly) (hpending : r.pool.pending = 0)
    (hphase : ∀ next, r.phase ≠ .submitting next) : ∀ x ∈ r.readers, x.stage = .gone := by
  intro x hx
  obtain ⟨i, hi⟩ := List.mem_iff_getElem?.mp hx
  by_contra hstage
  rcases h.placed i x hi hstage with ⟨next, -, hnext⟩ | hholds
  · exact hphase next hnext
  · exact h.not_holds hpending i hholds

end Orderly

/-! ### From the first reader on -/

/-- A relay that is about to hand over its first reader. -/
structure Poised (r : Relay σ) : Prop where
  phase : r.phase = .submitting 0
  failure : r.failure = none
  running : r.running = true
  acks : r.acks = []
  pidFile : r.pidFile = none
  readers : 0 < r.readers.length
  fresh : ∀ x ∈ r.readers, x.Fresh
  pool : r.pool = { workers := List.replicate r.readers.length .idle }

lemma Poised.of_prepare {config : RelayConfig} {online : ℕ} {pid : UInt32} {d : Dispatcher σ}
    {fs fs' : Files} {r : Relay σ} (h : prepare config online pid d fs = (fs', .ok r)) :
    r.Poised ∧ r.readers.length = 2 * r.cpus ∧ (∀ x ∈ r.readers, x.pins = config.pinReaders) ∧
      r.pidPath = config.pidFile ∧ r.pid = pid ∧ r.files = fs' := by
  obtain ⟨-, ⟨hone, -⟩, hfresh, hchannels⟩ := prepare_ok h
  have hlength : r.readers.length = 2 * r.cpus := by
    rw [← List.length_map (f := (·.channel)), hchannels, Channel.length_all]
  unfold prepare at h
  split at h
  · cases h
  · dsimp only at h
    split at h
    · cases h
    · split at h
      · cases h
      · split at h
        · cases h
        · next pool hpool =>
          obtain ⟨hfiles, rfl⟩ : _ ∧ _ = r := by simpa using h
          refine ⟨⟨rfl, rfl, rfl, rfl, rfl, by omega, hfresh, ?_⟩, hlength, ?_, rfl, rfl, hfiles⟩
          · rw [hlength]
            exact (WorkerPool.new_eq_ok hpool).2
          · intro x hx
            obtain ⟨c, -, rfl⟩ := List.mem_map.mp hx
            rfl

/-- The relay of one cpu, whatever PID file it is to write. -/
lemma poised_oneCpuRelay (path : Option String) : Poised { oneCpuRelay with pidPath := path } where
  phase := rfl
  failure := rfl
  running := rfl
  acks := rfl
  pidFile := rfl
  readers := Nat.two_pos
  fresh x hx := by
    simp only [oneCpuRelay, List.mem_cons, List.not_mem_nil, or_false] at hx
    rcases hx with rfl | rfl <;> exact ⟨rfl, rfl⟩
  pool := rfl

lemma Poised.orderly {r : Relay σ} (h : r.Poised) : r.Orderly where
  balanced := h.pool ▸ WorkerPool.balanced_new _
  manned := h.pool ▸ WorkerPool.manned_new h.readers
  offered := by rw [h.pool]
  accepting := by rw [h.pool, h.phase]; rfl
  running := by rw [h.running, h.phase]; rfl
  failed hfailure := (hfailure h.failure).elim
  placed i _ _ _ := .inl ⟨0, Nat.zero_le i, h.phase⟩
  finished := by simp [h.phase, Phase.exited?]
  deserted := by simp [h.phase, Phase.exited?]

end Relay

end ProvenanceRelay
