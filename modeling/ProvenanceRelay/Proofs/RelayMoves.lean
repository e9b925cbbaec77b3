import Mathlib
import ProvenanceRelay.Proofs.Interleaving
import ProvenanceRelay.Proofs.PoolUse

/-!
What a step of a relay does.

The registering thread goes on in one of eighteen ways, each with what it has found. Any other step
is one of a worker: it takes a reader, lets it go on, is done with it, or leaves.
-/

namespace ProvenanceRelay.Relay

open Reader (News)

variable {σ : Type}

/-- How the thread that registers and stops a relay goes on. -/
inductive Onward (r : Relay σ) : Relay σ → Prop
  | submit {next : ℕ} {pool : WorkerPool ℕ} (hphase : r.phase = .submitting next)
      (hlt : next < r.readers.length) (hsubmit : r.pool.submit next = .ok pool) :
      r.Onward { r with pool, phase := .submitting (next + 1) }
  | unsubmitted {next : ℕ} {e : SystemError} (hphase : r.phase = .submitting next)
      (hlt : next < r.readers.length) (hsubmit : r.pool.submit next = .error e) :
      r.Onward (r.fail (.pool e))
  | submitted {next : ℕ} (hphase : r.phase = .submitting next) (hge : r.readers.length ≤ next) :
      r.Onward { r with phase := .awaiting 0 }
  | hear {started : ℕ} {acks : List Reader.Ack} (hphase : r.phase = .awaiting started)
      (hlt : started < r.readers.length) (hacks : r.acks = .started :: acks) :
      r.Onward { r with acks, phase := .awaiting (started + 1) }
  | hearRefused {started cpu : ℕ} {e : SystemError} {acks : List Reader.Ack}
      (hphase : r.phase = .awaiting started) (hlt : started < r.readers.length)
      (hacks : r.acks = .refused cpu e :: acks) :
      r.Onward ({ r with acks }.fail (.affinity cpu e))
  | missed {started : ℕ} (hphase : r.phase = .awaiting started)
      (hlt : started < r.readers.length) (hacks : r.acks = []) (hnone : r.anyCanTell = false) :
      r.Onward (r.fail (.startup (.exited started r.readers.length)))
  | overdue {started : ℕ} (hphase : r.phase = .awaiting started)
      (hlt : started < r.readers.length) (hacks : r.acks = []) (hany : r.anyCanTell = true) :
      r.Onward (r.fail (.startup (.timeout started r.readers.length)))
  | heard {started : ℕ} (hphase : r.phase = .awaiting started)
      (hge : r.readers.length ≤ started) : r.Onward { r with phase := .writing }
  | unasked (hphase : r.phase = .writing) (hpath : r.pidPath = none) :
      r.Onward { r with phase := .up }
  | write {path : String} {files : Files} (hphase : r.phase = .writing)
      (hpath : r.pidPath = some path) (hcreate : PidFile.create r.files path r.pid = .ok files) :
      r.Onward { r with files, pidFile := some path, phase := .up }
  | unwritten {path : String} {e : SystemError} (hphase : r.phase = .writing)
      (hpath : r.pidPath = some path) (hcreate : PidFile.create r.files path r.pid = .error e) :
      r.Onward (r.fail (.pidFile path e))
  | stop (hphase : r.phase = .up) : r.Onward r.halt
  | idle (hphase : r.phase = .waiting) (hidle : r.pool.isIdle = true) :
      r.Onward { r with phase := .counting true }
  | busy (hphase : r.phase = .waiting) (hbusy : r.pool.isIdle = false) :
      r.Onward { r with phase := .counting false }
  | count {exited : Bool} (hphase : r.phase = .counting exited) :
      r.Onward { r with phase := .destroying exited r.pool.pending }
  | destroy {exited : Bool} {lingering : ℕ} (hphase : r.phase = .destroying exited lingering) :
      r.Onward { r with pool := r.pool.close, phase := .joining exited lingering }
  | join {exited : Bool} {lingering : ℕ} (hphase : r.phase = .joining exited lingering)
      (hleft : r.pool.isDeserted ∨ r.pool.pending ≠ 0) :
      r.Onward { r with phase := .releasing exited lingering }
  | release {exited : Bool} {lingering : ℕ} (hphase : r.phase = .releasing exited lingering) :
      r.Onward { r with
        files := r.releasePid.files, pidFile := none, phase := .down exited lingering }

lemma releasePid_eq (r : Relay σ) :
    r.releasePid = { r with files := r.releasePid.files, pidFile := none } := by
  unfold releasePid
  split
  · next hnone => rw [← hnone]
  · rfl

namespace Onward

variable {r r' : Relay σ}

lemma of_main? (h : r.main? = some r') : r.Onward r' := by
  unfold main? at h
  split at h
  · -- readers are handed over
    next next hphase =>
    obtain rfl := Option.some.inj h
    unfold submitNext
    split
    · next hlt =>
      split
      · next hsubmit => exact .submit hphase hlt hsubmit
      · next hsubmit => exact .unsubmitted hphase hlt hsubmit
    · next hge => exact .submitted hphase (not_lt.mp hge)
  · -- readers are heard
    next started hphase =>
    split at h
    · cases h
    · next hstuck =>
      obtain rfl := Option.some.inj h
      unfold Relay.hear
      split
      · next hlt =>
        split
        · next hacks => exact .hear hphase hlt hacks
        · next hacks => exact .hearRefused hphase hlt hacks
        · next hacks =>
          cases hany : r.anyCanTell with
          | true => exact (hstuck ⟨hlt, hacks, hany⟩).elim
          | false => exact .missed hphase hlt hacks hany
      · next hge => exact .heard hphase (not_lt.mp hge)
  · -- the PID file is to be written
    next hphase =>
    obtain rfl := Option.some.inj h
    unfold writePid
    split
    · next hpath => exact .unasked hphase hpath
    · next hpath =>
      split
      · next hcreate => exact .write hphase hpath hcreate
      · next hcreate => exact .unwritten hphase hpath hcreate
  · -- up, until it is told to stop
    cases h
  · -- readers are waited for
    next hphase =>
    split at h
    · next hidle => exact Option.some.inj h ▸ .idle hphase hidle
    · cases h
  · next hphase => exact Option.some.inj h ▸ .count hphase
  · next hphase => exact Option.some.inj h ▸ .destroy hphase
  · -- the workers are joined
    next hphase =>
    split at h
    · next hleft => exact Option.some.inj h ▸ .join hphase hleft
    · cases h
  · -- the PID file is let go of
    next hphase =>
    obtain rfl := Option.some.inj h
    rw [releasePid_eq]
    exact .release hphase
  · -- down
    cases h

lemma expire (r : Relay σ) : r.expire = r ∨ r.Onward r.expire := by
  unfold Relay.expire
  split
  · -- the time to start is over
    next started hphase hstuck =>
    refine .inr ?_
    unfold main? at hstuck
    simp only [hphase] at hstuck
    split at hstuck
    · next h => exact .overdue hphase h.1 h.2.1 h.2.2
    · cases hstuck
  · -- the time to leave is over
    next hphase hstuck =>
    refine .inr ?_
    unfold main? at hstuck
    simp only [hphase] at hstuck
    split at hstuck
    · cases hstuck
    · next hbusy => exact .busy hphase (by simpa using hbusy)
  · exact .inl rfl

end Onward

lemma Onward.fixed {r r' : Relay σ} (h : r.Onward r') :
    r'.readers = r.readers ∧ r'.dispatcher = r.dispatcher := by
  cases h <;> exact ⟨rfl, rfl⟩

/-- Where an event leads, and the turn that it is. -/
inductive Move (r : Relay σ) : Option Turn → Relay σ → Prop
  | rest : r.Move none r
  | main {r' : Relay σ} (h : r.Onward r') : r.Move none r'
  | take (w : ℕ) : r.Move none { r with pool := r.pool.take w }
  | uncount (w : ℕ) : r.Move none { r with pool := r.pool.uncount w }
  | leave (w : ℕ) : r.Move none { r with pool := r.pool.leave w }
  | turn {w i : ℕ} {x : Reader} (n : News) (hw : r.pool.workers[w]? = some (.running i))
      (hx : r.readers[i]? = some x) :
      r.Move (some ⟨i, x, r.see n⟩)
        ({ r with
          readers := r.readers.set i (x.step r.dispatcher.handler.policy (r.see n)).1 }.apply w
            (x.step r.dispatcher.handler.policy (r.see n)).2)

lemma move (r : Relay σ) (e : Event) : r.Move (r.turn? e) (r.step e) := by
  cases e with
  | main =>
    cases hmain : r.main? with
    | none => simpa [step, turn?, hmain] using Move.rest
    | some r' => simpa [step, turn?, hmain] using Move.main (.of_main? hmain)
  | timeout =>
    rcases Onward.expire r with hsame | honward
    · simpa [step, turn?, hsame] using Move.rest
    · exact .main honward
  | stop =>
    change r.Move none r.requestStop
    unfold requestStop
    split
    · next hphase => exact .main (.stop hphase)
    · exact .rest
  | take w => exact .take w
  | uncount w => exact .uncount w
  | leave w => exact .leave w
  | reader w n =>
    unfold step turn? stepReader
    dsimp only
    cases hreader : r.readerOf? w with
    | none => exact .rest
    | some ix =>
      obtain ⟨i, x⟩ := ix
      unfold readerOf? at hreader
      split at hreader
      · next hw =>
        obtain ⟨y, hy, heq⟩ := Option.map_eq_some_iff.mp hreader
        obtain ⟨rfl, rfl⟩ := Prod.mk.inj heq
        exact .turn n hw hy
      · cases hreader

/-- A reader reaches the dispatcher, the registering thread and the pool, and nothing else. -/
lemma apply_eq (r : Relay σ) (w : ℕ) (effect : Option Reader.Effect) :
    r.apply w effect = { r with
      dispatcher := (r.apply w effect).dispatcher
      acks := (r.apply w effect).acks
      pool := (r.apply w effect).pool } := by
  unfold apply
  split <;> rfl

lemma run_inv {P : Relay σ → Prop} (hstep : ∀ r e, P r → P (r.step e)) {r : Relay σ} (h : P r)
    (es : List Event) : P (r.run es) := by
  induction es generalizing r with
  | nil => exact h
  | cons e es ih => exact ih (hstep r e h)

end ProvenanceRelay.Relay
