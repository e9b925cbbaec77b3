import Mathlib
import ProvenanceRelay.Proofs.FilePlaces
import ProvenanceRelay.Proofs.RelayOrder
import ProvenanceRelay.Relay.Schedule

/-!
How a relay stops.

The PID file comes when the relay is up, and stays until the readers have gone or have been given
up. A relay that has stopped with all of its readers gone has no worker, no reader and no PID file
left, and nothing that happens afterwards changes anything about it.
-/

namespace ProvenanceRelay.Relay

variable {σ : Type}

/-! ### The PID file -/

def Phase.isEarly : Phase → Bool
  | .submitting _ | .awaiting _ | .writing => true
  | _ => false

def Phase.isDown : Phase → Bool
  | .down _ _ => true
  | _ => false

lemma Onward.not_down {r r' : Relay σ} (h : r.Onward r') : r.phase.isDown = false := by
  cases h <;> simp [*, Phase.isDown]

/-- What has become of the PID file of a relay that found the files as `fs`. -/
inductive Marking (fs : Files) (r : Relay σ) : Prop
  | unmarked (hwhy : r.failure ≠ none ∨ r.phase.isEarly = true ∨ r.pidPath = none)
      (hpid : r.pidFile = none) (hfiles : r.files = fs)
  | marked {path : String} (hfailure : r.failure = none) (hearly : r.phase.isEarly = false)
      (hdown : r.phase.isDown = false) (hpath : r.pidPath = some path)
      (hpid : r.pidFile = some path) (hcreate : PidFile.create fs path r.pid = .ok r.files)
  | released {path : String} {gs : Files} (hfailure : r.failure = none)
      (hdown : r.phase.isDown = true) (hpath : r.pidPath = some path) (hpid : r.pidFile = none)
      (hcreate : PidFile.create fs path r.pid = .ok gs) (hfiles : r.files = PidFile.release gs path)

namespace Marking

variable {fs : Files} {r r' : Relay σ}

lemma main (h : r.Marking fs) (ho : r.Orderly) (honward : r.Onward r') : r'.Marking fs := by
  have hfailed := ho.not_failed
  cases h with
  | unmarked hwhy hpid hfiles =>
    cases honward with
    | submit | submitted | hear | heard => exact .unmarked (.inr (.inl rfl)) hpid hfiles
    | unsubmitted | hearRefused | missed | overdue | unwritten =>
      exact .unmarked (.inl (by simp [fail])) hpid hfiles
    | unasked hphase hpath => exact .unmarked (.inr (.inr hpath)) hpid hfiles
    | write hphase hpath hcreate =>
      exact .marked (hfailed (by rw [hphase]; rfl)) rfl rfl hpath rfl (hfiles ▸ hcreate)
    | stop hphase | idle hphase | busy hphase | count hphase | destroy hphase | join hphase =>
      simp only [hphase, Phase.isEarly, Bool.false_eq_true, false_or] at hwhy
      exact .unmarked (hwhy.imp_right .inr) hpid hfiles
    | release hphase =>
      simp only [hphase, Phase.isEarly, Bool.false_eq_true, false_or] at hwhy
      refine .unmarked (hwhy.imp_right .inr) rfl ?_
      simpa [releasePid, hpid] using hfiles
  | @marked path hfailure hearly _ hpath hpid hcreate =>
    cases honward with
    | submit hphase | submitted hphase | hear hphase | heard hphase | unsubmitted hphase
    | hearRefused hphase | missed hphase | overdue hphase | unwritten hphase | unasked hphase
    | write hphase => simp [hphase, Phase.isEarly] at hearly
    | stop | idle | busy | count | destroy | join =>
      exact .marked hfailure rfl rfl hpath hpid hcreate
    | release => exact .released hfailure rfl hpath rfl hcreate (by simp [releasePid, hpid])
  | released hfailure hdown => simp [honward.not_down] at hdown

lemma congr (h : r.Marking fs) (hfailure : r'.failure = r.failure) (hphase : r'.phase = r.phase)
    (hpath : r'.pidPath = r.pidPath) (hnumber : r'.pid = r.pid) (hpid : r'.pidFile = r.pidFile)
    (hfiles : r'.files = r.files) : r'.Marking fs := by
  cases h with
  | unmarked hwhy hnone hsame =>
    exact .unmarked (by rwa [hfailure, hphase, hpath]) (hpid.trans hnone) (hfiles.trans hsame)
  | marked hnone hearly hdown hsome hheld hcreate =>
    exact .marked (hfailure.trans hnone) (by rwa [hphase]) (by rwa [hphase]) (hpath.trans hsome)
      (hpid.trans hheld) (by rwa [hnumber, hfiles])
  | released hnone hdown hsome hfree hcreate hrelease =>
    exact .released (hfailure.trans hnone) (by rwa [hphase]) (hpath.trans hsome)
      (hpid.trans hfree) (by rwa [hnumber]) (hfiles.trans hrelease)

end Marking

/-- The files as the registration of `r₀` found them, but for the PID file. -/
structure Filed (r₀ r : Relay σ) : Prop where
  pidPath : r.pidPath = r₀.pidPath
  pid : r.pid = r₀.pid
  marking : r.Marking r₀.files
  unwritten : ∀ path e, r.failure = some (.pidFile path e) →
    r₀.pidPath = some path ∧ PidFile.create r₀.files path r₀.pid = .error e

namespace Filed

variable {r₀ r : Relay σ}

lemma of_poised (h : r.Poised) : r.Filed r :=
  ⟨rfl, rfl, .unmarked (.inr (.inl (by rw [h.phase]; rfl))) h.pidFile rfl,
    by simp [h.failure]⟩

lemma files_eq (h : r₀.Filed r) (hphase : r.phase = .writing) : r.files = r₀.files := by
  cases h.marking with
  | unmarked hwhy hpid hfiles => exact hfiles
  | marked hfailure hearly => simp [hphase, Phase.isEarly] at hearly
  | released hfailure hdown => simp [hphase, Phase.isDown] at hdown

lemma step (h : r₀.Filed r) (ho : r.Orderly) (e : Event) : r₀.Filed (r.step e) := by
  have hmove := r.move e
  generalize r.turn? e = t, r.step e = s at hmove ⊢
  cases hmove with
  | main honward =>
    have hmarking := h.marking.main ho honward
    cases honward with
    | unwritten hphase hpath hcreate =>
      refine ⟨h.pidPath, h.pid, hmarking, fun path' e' hfailure => ?_⟩
      obtain ⟨rfl, rfl⟩ : _ = path' ∧ _ = e' := by simpa [fail] using hfailure
      rw [← h.pidPath, ← h.pid, ← h.files_eq hphase]
      exact ⟨hpath, hcreate⟩
    | unsubmitted | hearRefused | missed | overdue =>
      exact ⟨h.pidPath, h.pid, hmarking, by simp [fail]⟩
    | _ => exact ⟨h.pidPath, h.pid, hmarking, h.unwritten⟩
  | @turn w i x n hw hx =>
    rw [apply_eq]
    exact ⟨h.pidPath, h.pid, h.marking.congr rfl rfl rfl rfl rfl rfl, h.unwritten⟩
  | _ => exact ⟨h.pidPath, h.pid, h.marking.congr rfl rfl rfl rfl rfl rfl, h.unwritten⟩

lemma run (h : r₀.Filed r) (ho : r.Orderly) (es : List Event) : r₀.Filed (r.run es) :=
  (run_inv (P := fun s => s.Orderly ∧ r₀.Filed s)
    (fun _ e hs => ⟨hs.1.step e, hs.2.step hs.1 e⟩) ⟨ho, h⟩ es).2

end Filed

/-! ### After the relay has come up -/

lemma Onward.late {r r' : Relay σ} (h : r.Onward r') (hlate : r.phase.isEarly = false) :
    r'.phase.isEarly = false ∧ r'.failure = r.failure := by
  cases h with
  | submit hphase | submitted hphase | hear hphase | heard hphase | unsubmitted hphase
  | hearRefused hphase | missed hphase | overdue hphase | unwritten hphase | unasked hphase
  | write hphase => simp [hphase, Phase.isEarly] at hlate
  | _ => exact ⟨rfl, rfl⟩

lemma late_run {r : Relay σ} (h : r.phase.isEarly = false) (es : List Event) :
    (r.run es).phase.isEarly = false ∧ (r.run es).failure = r.failure := by
  refine run_inv (P := fun s => s.phase.isEarly = false ∧ s.failure = r.failure)
    (fun s e hs => ?_) ⟨h, rfl⟩ es
  have hmove := s.move e
  generalize s.turn? e = t, s.step e = s' at hmove ⊢
  cases hmove with
  | main honward => exact (honward.late hs.1).imp_right fun hsame => hsame.trans hs.2
  | turn =>
    rw [apply_eq]
    exact hs
  | _ => exact hs

/-! ### The end -/

namespace Orderly

variable {r : Relay σ} {lingering : ℕ}

/-- **Nothing happens to a relay that has stopped with all of its readers gone.** -/
lemma step_of_down (h : r.Orderly) (hphase : r.phase = .down true lingering) (e : Event) :
    r.step e = r ∧ r.turn? e = none := by
  have hdeserted := h.deserted (by rw [hphase]; rfl) (by rw [hphase]; rfl)
  have hmove := r.move e
  generalize r.turn? e = t, r.step e = s at hmove ⊢
  cases hmove with
  | rest => exact ⟨rfl, rfl⟩
  | main honward =>
    have hdown := honward.not_down
    simp [hphase, Phase.isDown] at hdown
  | take w => exact ⟨by rw [(WorkerPool.Worked.take w).deserted hdeserted], rfl⟩
  | uncount w => exact ⟨by rw [(WorkerPool.Worked.uncount w).deserted hdeserted], rfl⟩
  | leave w => exact ⟨by rw [(WorkerPool.Worked.leave w).deserted hdeserted], rfl⟩
  | turn n hw hx => cases WorkerPool.eq_gone_of_isDeserted hdeserted hw

lemma run_of_down (h : r.Orderly) (hphase : r.phase = .down true lingering) (es : List Event) :
    r.run es = r ∧ r.turns es = [] := by
  induction es with
  | nil => exact ⟨rfl, rfl⟩
  | cons e es ih =>
    obtain ⟨hstep, hturn⟩ := h.step_of_down hphase e
    rw [run_cons, turns, hstep, hturn]
    exact ih

lemma gone_of_exited (h : r.Orderly) (hexited : r.phase.exited? = some true) :
    ∀ x ∈ r.readers, x.stage = .gone :=
  h.gone_of_idle (h.finished hexited) fun next hnext => by simp [hnext, Phase.exited?] at hexited

/-- No reader is left in such a relay, and no channel is open. -/
lemma idle_of_exited (h : r.Orderly) (hexited : r.phase.exited? = some true) :
    r.openChannels = 0 ∧ r.activeReaders = 0 ∧ r.pool.queue = [] ∧
      ∀ i, .running i ∉ r.pool.workers := by
  have hpending := h.finished hexited
  refine ⟨?_, hpending, ?_, fun i hi => h.not_holds hpending i (.inr hi)⟩
  · refine List.countP_eq_zero.mpr fun x hx => ?_
    simp [Reader.isOpen, h.gone_of_exited hexited x hx]
  · refine List.eq_nil_iff_forall_not_mem.mpr fun i hi => ?_
    exact h.not_holds hpending i (.inl hi)

end Orderly

/-- The PID file is there, or a device that keeps no number. -/
def HasPidFile (r : Relay σ) (path : String) : Prop :=
  r.files.find path = .ok (.file (Text.Utf8.encode (PidFile.text r.pid))) ∨
    ∃ d, r.files.find path = .ok (.device d)

/-- **A clean stop is final.** While any reader of a relay that has come up is left, and has not
been given up, the PID file is there. A stop that ends well leaves the flag cleared, no channel
open, no reader waiting or at work, and no PID file; then nothing changes any more, whatever happens
and however often the relay is told to stop or let go of. To let go of a relay that is up is to stop
it. -/
theorem clean_stop_final {r : Relay σ} (h : r.Poised) {path : String}
    (hpath : r.pidPath = some path) {before : List Event} (hup : (r.run before).phase = .up)
    (after : List Event) :
    let registered := r.run before
    let u := registered.run after
    (u.phase.exited? ≠ some false → (∃ x ∈ u.readers, x.stage ≠ .gone) → u.HasPidFile path) ∧
    (∀ exited lingering, u.phase = .down exited lingering → stopResult u.phase = .ok () →
      (u.running = false ∧ u.openChannels = 0 ∧ u.activeReaders = 0 ∧ u.pool.queue = [] ∧
        (∀ i, .running i ∉ u.pool.workers) ∧ u.files.find path = .error .notFound) ∧
      (∀ later, u.run later = u ∧ u.turns later = []) ∧
      (∀ around, Scene.stop ⟨u, around⟩ = (⟨u, around⟩, .ok ())) ∧ u.letGo = u) ∧
    ∀ es, registered.letGo.run es = registered.run (.stop :: es) := by
  intro registered u
  have hregistered : registered.Orderly := h.orderly.run before
  have ho : u.Orderly := hregistered.run after
  have hfiled : r.Filed u :=
    ((Filed.of_poised h).run h.orderly before).run hregistered after
  obtain ⟨hearly, hfailure⟩ : u.phase.isEarly = false ∧ u.failure = registered.failure :=
    late_run (by rw [hup]; rfl) after
  rw [hregistered.not_failed (by rw [hup]; rfl)] at hfailure
  have hsome : u.pidPath = some path := hfiled.pidPath.trans hpath
  have hmarking := hfiled.marking
  refine ⟨fun hexited ⟨x, hx, hstage⟩ => ?_, fun exited lingering hphase hresult => ?_,
    fun es => ?_⟩
  · -- a reader is left, so the relay is not down
    have hdown : u.phase.isDown = false := by
      cases hphase : u.phase with
      | down exited lingering =>
        cases exited with
        | false => simp [hphase, Phase.exited?] at hexited
        | true => exact (hstage (ho.gone_of_exited (by rw [hphase]; rfl) x hx)).elim
      | _ => rfl
    -- so the file has been made, and not yet taken away
    cases hmarking with
    | unmarked hwhy => simp [hfailure, hearly, hsome] at hwhy
    | @marked path' _ _ _ hpath' _ hcreate =>
      obtain rfl : path' = path := by simpa [hsome] using hpath'.symm
      exact (PidFile.find_create hcreate).symm
    | released _ hdown' => simp [hdown] at hdown'
  · -- a stop ends well only when every reader has gone
    obtain rfl : exited = true := by
      cases exited
      · simp [hphase, stopResult] at hresult
      · rfl
    have hexited : u.phase.exited? = some true := by rw [hphase]; rfl
    obtain ⟨hopen, hactive, hqueue, hrunning⟩ := ho.idle_of_exited hexited
    -- the file has gone with the relay
    have hfind : u.pidFile = none ∧ u.files.find path = .error .notFound := by
      cases hmarking with
      | unmarked hwhy => simp [hfailure, hearly, hsome] at hwhy
      | marked _ _ hdown => simp [hphase, Phase.isDown] at hdown
      | @released path' gs _ _ hpath' hpid hcreate hfiles =>
        obtain rfl : path' = path := by simpa [hsome] using hpath'.symm
        exact ⟨hpid, hfiles ▸ PidFile.find_release hcreate⟩
    refine ⟨⟨?_, hopen, hactive, hqueue, hrunning, hfind.2⟩, ho.run_of_down hphase, ?_, ?_⟩
    · -- the flag is cleared
      rw [ho.running, hphase]
      rfl
    · -- a relay that is not up has nothing to stop
      intro around
      have hnot : u.phase ≠ .up := by simp [hphase]
      simp only [Scene.stop, if_neg hnot]
    · -- there is no file left to take away, and the pool is closed already
      have hclosed : u.pool.accepting = false := by rw [ho.accepting, hphase]; rfl
      have hrelease : u.releasePid = u := by simp only [releasePid, hfind.1]
      unfold letGo
      split
      · next hup => simp [hphase] at hup
      · rw [hrelease, WorkerPool.close_of_closed hclosed]
      · rfl
  · -- a relay that is up is told to stop when it is let go of
    have hlet : registered.letGo = registered.step .stop := by
      have hphase : registered.phase = .up := hup
      simp only [letGo, hphase]
      rfl
    rw [hlet, run_cons]

/-- A relay that is to write a PID file, with two readers. -/
def markedRelay : Relay Unit := { oneCpuRelay with pidPath := some "relay.pid" }

/-- Both readers start, and the PID file is written. -/
def startEvents : List Event :=
  [.main, .main, .main, .take 0, .take 1, .reader 0 .go, .reader 1 .go, .reader 0 .go,
    .reader 1 .go, .reader 0 .go, .reader 1 .go, .main, .main, .main, .main]

/-- The relay is stopped, and both readers see it before they wait for their channels. -/
def stopEvents : List Event :=
  [.stop, .reader 0 .go, .reader 1 .go, .reader 0 (.loop (.flag true)),
    .reader 1 (.loop (.flag true)), .reader 0 .go, .reader 1 .go, .reader 0 .go, .reader 1 .go,
    .uncount 0, .uncount 1, .main, .main, .main, .leave 0, .leave 1, .main, .main]

theorem clean_stop_final_markedRelay :
    markedRelay.Poised ∧ (markedRelay.run startEvents).phase = .up ∧
      ((markedRelay.run startEvents).run stopEvents).phase = .down true 0 ∧
      ((markedRelay.run startEvents).run stopEvents).openChannels = 0 ∧
      ((markedRelay.run startEvents).run stopEvents).files.find "relay.pid" =
        .error .notFound := by
  have hpoised : markedRelay.Poised := poised_oneCpuRelay _
  have hup : (markedRelay.run startEvents).phase = .up := by decide +kernel
  have hdown : ((markedRelay.run startEvents).run stopEvents).phase = .down true 0 := by
    decide +kernel
  obtain ⟨-, hend, -⟩ := clean_stop_final hpoised rfl hup stopEvents
  obtain ⟨⟨-, hopen, -, -, -, hfind⟩, -⟩ := hend true 0 hdown (by rw [hdown]; rfl)
  exact ⟨hpoised, hup, hdown, hopen, hfind⟩

end ProvenanceRelay.Relay
