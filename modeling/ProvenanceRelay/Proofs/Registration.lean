import Mathlib
import ProvenanceRelay.Proofs.Startup
import ProvenanceRelay.Proofs.Stopping
import ProvenanceRelay.Relay.Opening

/-!
All or nothing.

A registration fails with the first fault in the order of its steps. Where it fails before it has
readers, it closes the channels that it has opened. Where it fails later, it does not come back
before its readers have gone, unless it gives them up. Either way the files are those that the
request for exclusion has left behind.
-/

namespace ProvenanceRelay

namespace RelayConfig

/-- The number of cpus that channels are opened for. -/
def cpuCount (config : RelayConfig) (online : ℕ) : ℕ := config.cpus.elim online (·.toNat)

def readerCount (config : RelayConfig) (online : ℕ) : ℕ := 2 * config.cpuCount online

def channels (config : RelayConfig) (online : ℕ) : List Channel :=
  Channel.all config.shortPrefix config.longPrefix (config.cpuCount online)

end RelayConfig

/-! ### Channels that are opened in a row -/

namespace Opening

variable {o : Opening}

def Exact (o : Opening) : Prop := o.count = o.held.length

lemma Exact.hold (h : o.Exact) (c : Channel) : (o.hold c).Exact := by
  unfold Exact at h
  simp [Exact, Opening.hold, h]

lemma foldl_pred (cs : List Channel) (n : ℕ) :
    cs.foldl (fun n _ => n - 1) n = n - cs.length := by
  induction cs generalizing n with
  | nil => rfl
  | cons c cs ih =>
    rw [List.foldl_cons, ih, List.length_cons]
    omega

lemma Exact.giveUp (h : o.Exact) : o.giveUp = {} := by
  unfold Exact at h
  simp [Opening.giveUp, foldl_pred, h]

/-- Either every channel is open, or none is and the first that could not be opened is named. -/
lemma openEach_cases (h : o.Exact) (fs : Files) (cs : List Channel) :
    (o.openEach fs cs = (⟨o.held ++ cs, o.count + cs.length⟩, .ok ()) ∧
        Relay.openAll fs cs = .ok () ∧ ∀ c ∈ cs, Channel.openable fs c.path = .ok ()) ∨
      ∃ before c after e, cs = before ++ c :: after ∧
        (∀ b ∈ before, Channel.openable fs b.path = .ok ()) ∧
        Channel.openable fs c.path = .error e ∧
        o.openEach fs cs = ({}, .error (.channel c.path e)) ∧
        Relay.openAll fs cs = .error (.channel c.path e) := by
  induction cs generalizing o with
  | nil => exact .inl ⟨by simp [openEach], rfl, by simp⟩
  | cons c cs ih =>
    rw [openEach, Relay.openAll]
    cases hc : Channel.openable fs c.path with
    | error e => exact .inr ⟨[], c, cs, e, rfl, by simp, hc, by simp [h.giveUp], rfl⟩
    | ok u =>
      rcases ih (h.hold c) with ⟨hopen, hall, hevery⟩ |
        ⟨before, b, after, e, rfl, hbefore, hb, hopen, hall⟩
      · refine .inl ⟨?_, hall, List.forall_mem_cons.mpr ⟨hc, hevery⟩⟩
        dsimp only
        rw [hopen]
        simp only [Opening.hold, List.append_assoc, List.singleton_append, List.length_cons,
          Nat.add_assoc, Nat.add_comm 1]
      · exact .inr ⟨c :: before, b, after, e, rfl, List.forall_mem_cons.mpr ⟨hc, hbefore⟩, hb,
          hopen, hall⟩

end Opening

/-! ### What the request for exclusion changes -/

/-- A path leads to what it led to before, unless the request for exclusion has been written over
the beginning of that very file. -/
def KeptByExclusion (self : Option String) (fs gs : Files) (path : String) : Prop :=
  gs.find path = fs.find path ∨
    ∃ s p old, self = some s ∧ fs.locate s = .ok p ∧ fs.locate path = .ok p ∧
      fs.find path = .ok (.file old) ∧
      gs.find path = .ok (.file (Exclusion.request ++ old.drop Exclusion.request.length))

lemma KeptByExclusion.of_apply {self : Option String} {fs gs : Files}
    (h : Exclusion.apply self fs = .ok gs) (path : String) : KeptByExclusion self fs gs path := by
  cases self with
  | none => exact .inl (by rw [Except.ok.inj h])
  | some s =>
    obtain ⟨p, hs, hchanged, halike, rfl | ⟨old, hold, hnew⟩⟩ := Files.overwrite_eq_ok h
    · exact .inl rfl
    · by_cases hpath : fs.locate path = .ok p
      · exact .inr ⟨s, p, old, rfl, hs, hpath, Files.find_of_lookup hpath hold,
          Files.find_of_lookup ((halike.locate path).trans hpath) hnew⟩
      · exact .inl (halike.find_of_ne hchanged hpath)

namespace Relay

variable {σ : Type}

/-! ### Before there are readers -/

/-- The first thing to fail before there are readers, and the files as they are then. -/
inductive EarlyFault (config : RelayConfig) (online : ℕ) (fs : Files) : Files → RelayError → Prop
  | exclusion {e : SystemError} (hasked : Exclusion.apply config.exclusion fs = .error e) :
      EarlyFault config online fs fs (.exclusion e)
  | tooManyCpus {gs : Files} (hasked : Exclusion.apply config.exclusion fs = .ok gs)
      (hcpus : maxCpus < config.cpuCount online) :
      EarlyFault config online fs gs (.tooManyCpus (config.cpuCount online) maxCpus)
  | channel {gs : Files} {before after : List Channel} {c : Channel} {e : SystemError}
      (hasked : Exclusion.apply config.exclusion fs = .ok gs)
      (hcpus : config.cpuCount online ≤ maxCpus)
      (hchannels : config.channels online = before ++ c :: after)
      (hbefore : ∀ b ∈ before, Channel.openable gs b.path = .ok ())
      (hc : Channel.openable gs c.path = .error e) :
      EarlyFault config online fs gs (.channel c.path e)
  | pool {gs : Files} (hasked : Exclusion.apply config.exclusion fs = .ok gs)
      (hcpus : config.cpuCount online = 0) : EarlyFault config online fs gs (.pool .noThreads)

/-- Nothing has failed before the first reader. -/
structure Cleared (config : RelayConfig) (online : ℕ) (fs gs : Files) : Prop where
  asked : Exclusion.apply config.exclusion fs = .ok gs
  some_cpu : 1 ≤ config.cpuCount online
  not_too_many : config.cpuCount online ≤ maxCpus
  openable : ∀ c ∈ config.channels online, Channel.openable gs c.path = .ok ()

lemma EarlyFault.kept {config : RelayConfig} {online : ℕ} {fs gs : Files} {e : RelayError}
    (h : EarlyFault config online fs gs e) (path : String) :
    KeptByExclusion config.exclusion fs gs path := by
  cases h with
  | exclusion => exact .inl rfl
  | tooManyCpus hasked | channel hasked | pool hasked => exact .of_apply hasked path

lemma cpus_eq_zero_of_new {cpus : ℕ} {e : SystemError} (hmax : cpus ≤ maxCpus)
    (h : (WorkerPool.new threadStem (2 * cpus) : Except SystemError (WorkerPool ℕ)) = .error e) :
    cpus = 0 ∧ e = .noThreads := by
  have hroom : 2 * maxCpus ≤ WorkerPool.maxSize := by decide
  have hsize : ¬ WorkerPool.maxSize < 2 * cpus := by omega
  have hstem : threadStem.contains '\x00' = false := by cbv
  unfold WorkerPool.new at h
  rw [if_neg hsize, hstem] at h
  split at h
  · next hzero => exact ⟨by omega, (Except.error.inj h).symm⟩
  · cases h

lemma setOut_cases (config : RelayConfig) (online : ℕ) (pid : UInt32) (d : Dispatcher σ)
    (fs : Files) :
    (∃ gs e, setOut config online pid d fs = (gs, {}, .error e) ∧
        prepare config online pid d fs = (gs, .error e) ∧ EarlyFault config online fs gs e) ∨
      ∃ gs o r, setOut config online pid d fs = (gs, o, .ok r) ∧
        prepare config online pid d fs = (gs, .ok r) ∧ Cleared config online fs gs ∧
        o.count = r.readers.length ∧ r.cpus = config.cpuCount online := by
  unfold setOut prepare
  cases hasked : Exclusion.apply config.exclusion fs with
  | error e => exact .inl ⟨fs, _, rfl, rfl, .exclusion hasked⟩
  | ok gs =>
    have hcount : config.cpus.elim online (·.toNat) = config.cpuCount online := rfl
    have hchannels : Channel.all config.shortPrefix config.longPrefix (config.cpuCount online) =
        config.channels online := rfl
    dsimp only
    simp only [hcount, hchannels]
    by_cases hmax : maxCpus < config.cpuCount online
    · -- there would be more channels than can be had
      simp only [if_pos hmax]
      exact .inl ⟨gs, _, rfl, rfl, .tooManyCpus hasked hmax⟩
    · simp only [if_neg hmax]
      have hexact : Opening.Exact {} := rfl
      rcases Opening.openEach_cases hexact gs (config.channels online) with
        ⟨hopen, hall, hevery⟩ | ⟨before, c, after, e, hsplit, hbefore, hc, hopen, hall⟩
      · -- every channel is open
        simp only [hopen, hall]
        cases hpool : (WorkerPool.new threadStem (2 * config.cpuCount online) :
            Except SystemError (WorkerPool ℕ)) with
        | error e =>
          -- the pool is refused only if there is no cpu, and then no channel either
          obtain ⟨hzero, rfl⟩ := cpus_eq_zero_of_new (not_lt.mp hmax) hpool
          have hnone : config.channels online = [] := by
            rw [RelayConfig.channels, hzero]
            rfl
          exact .inl ⟨gs, _, by simp [hnone, Opening.giveUp], rfl, .pool hasked hzero⟩
        | ok pool =>
          refine .inr ⟨gs, _, _, rfl, rfl, ⟨hasked, ?_, not_lt.mp hmax, hevery⟩, ?_, rfl⟩
          · have hsize := (WorkerPool.new_eq_ok hpool).1
            omega
          · simp
      · -- a channel cannot be opened, and those before it are closed
        simp only [hopen, hall]
        exact .inl ⟨gs, _, rfl, rfl, .channel hasked (not_lt.mp hmax) hsplit hbefore hc⟩

/-! ### From the first reader on -/

/-- What fails after all that comes before the readers, by what they have told: the first word that
is not that of a reader that has started, the want of one, or the PID file in the end. -/
inductive LateFault (config : RelayConfig) (online : ℕ) (pid : UInt32) (gs : Files)
    (policy : Policy) (ts : List Turn) : RelayError → Prop
  | affinity {started cpu : ℕ} {e : SystemError} (hlt : started < config.readerCount online)
      (htold : List.replicate started .started ++ [.refused cpu e] <+: toldOf policy ts) :
      LateFault config online pid gs policy ts (.affinity cpu e)
  | exited {started : ℕ} (hlt : started < config.readerCount online)
      (htold : toldOf policy ts = List.replicate started .started) :
      LateFault config online pid gs policy ts
        (.startup (.exited started (config.readerCount online)))
  | overdue {started : ℕ} (hlt : started < config.readerCount online)
      (htold : List.replicate started .started <+: toldOf policy ts) :
      LateFault config online pid gs policy ts
        (.startup (.timeout started (config.readerCount online)))
  | pidFile {path : String} {e : SystemError}
      (hstarted : ∀ i < config.readerCount online, marksOf policy (turnsOf i ts) = Reader.started)
      (hpath : config.pidFile = some path) (hcreate : PidFile.create gs path pid = .error e) :
      LateFault config online pid gs policy ts (.pidFile path e)

/-- The wait for the readers to leave never ends while one of them is in the pool. -/
def Patient (r : Relay σ) (es : List Event) : Prop :=
  ∀ before after, es = before ++ .timeout :: after → (r.run before).phase = .waiting →
    (r.run before).activeReaders = 0

lemma exited?_step {r : Relay σ} {e : Event} (hr : r.phase.exited? ≠ some false)
    (hpatient : e = .timeout → r.phase = .waiting → r.activeReaders = 0) :
    (r.step e).phase.exited? ≠ some false := by
  -- only a wait that is over while the pool is busy gives readers up
  have honward : ∀ {r'}, r.Onward r' → (r.phase = .waiting → r.pool.isIdle = true) →
      r'.phase.exited? ≠ some false := by
    intro r' h hidle
    cases h with
    | busy hphase hbusy => simp [hidle hphase] at hbusy
    | count hphase | destroy hphase | join hphase | release hphase =>
      simpa [hphase, Phase.exited?] using hr
    | _ => simp [fail, halt, Phase.exited?]
  cases e with
  | main =>
    change (r.main?.getD r).phase.exited? ≠ some false
    cases hmain : r.main? with
    | none => exact hr
    | some r' =>
      refine honward (.of_main? hmain) fun hphase => ?_
      by_contra hbusy
      simp [main?, hphase, hbusy] at hmain
  | timeout =>
    change r.expire.phase.exited? ≠ some false
    rcases Onward.expire r with hsame | h
    · rwa [hsame]
    · exact honward h fun hphase => decide_eq_true (hpatient rfl hphase)
  | stop =>
    change r.requestStop.phase.exited? ≠ some false
    unfold requestStop
    split
    · simp [halt, Phase.exited?]
    · exact hr
  | take w => exact hr
  | uncount w => exact hr
  | leave w => exact hr
  | reader w n =>
    change (r.stepReader w n).phase.exited? ≠ some false
    unfold stepReader
    split
    · exact hr
    · dsimp only
      rw [apply_eq]
      exact hr

lemma exited?_run {r : Relay σ} {es : List Event} (hr : r.phase.exited? ≠ some false)
    (h : r.Patient es) : (r.run es).phase.exited? ≠ some false := by
  induction es using List.reverseRecOn with
  | nil => exact hr
  | append_singleton es e ih =>
    rw [run_append]
    refine exited?_step (ih fun before after hes => ?_) fun he => ?_
    · exact h before (after ++ [e]) (by rw [hes, List.append_assoc, List.cons_append])
    · exact h es [] (by rw [he])

lemma Starting.lateFault {config : RelayConfig} {online : ℕ} {pid : UInt32} {gs : Files}
    {policy : Policy} {ts : List Turn} {r : Relay σ} {e : RelayError} (h : Starting policy ts r)
    (hreaders : r.readers.length = config.readerCount online) (hfailure : r.failure = some e)
    (hunwritten : ∀ path e, r.failure = some (.pidFile path e) →
      config.pidFile = some path ∧ PidFile.create gs path pid = .error e) :
    LateFault config online pid gs policy ts e := by
  have hheard := h.heard
  have hstarted := h.eq_started
  simp only [Heard, hfailure, hreaders] at hheard hstarted
  cases e with
  | affinity cpu cause =>
    obtain ⟨started, hlt, htold⟩ := hheard
    exact .affinity hlt htold
  | startup fault =>
    cases fault with
    | timeout started readers =>
      obtain ⟨rfl, hlt, htold⟩ := hheard
      exact .overdue hlt htold
    | exited started readers =>
      obtain ⟨rfl, hlt, htold, -⟩ := hheard
      exact .exited hlt htold
  | pidFile path cause =>
    obtain ⟨hpath, hcreate⟩ := hunwritten path cause hfailure
    exact .pidFile (hstarted hheard) hpath hcreate
  | _ => exact hheard.elim

/-- **A registration is all or nothing.** One that fails names the first of its steps that cannot be
done. If it fails before it has readers, it has closed every channel that it has opened. If it fails
later, and waits for its readers to leave, it comes back with none of them left: nothing is in the
queue or at work, the running flag is cleared, and every channel is closed. Either way no PID file
is held, and every path, that of the PID file too, leads to what it led to before, unless the
request for exclusion has been written there. -/
theorem registration_all_or_nothing (config : RelayConfig) (online : ℕ) (pid : UInt32)
    (d : Dispatcher σ) (fs : Files) :
    (∀ gs o e, setOut config online pid d fs = (gs, o, .error e) →
      prepare config online pid d fs = (gs, .error e) ∧ EarlyFault config online fs gs e ∧
        o.held = [] ∧ o.count = 0 ∧ ∀ path, KeptByExclusion config.exclusion fs gs path) ∧
    ∀ gs o r, setOut config online pid d fs = (gs, o, .ok r) →
      prepare config online pid d fs = (gs, .ok r) ∧ Cleared config online fs gs ∧
        o.count = r.openChannels ∧
        ∀ es, r.Patient es →
          let u := r.run es
          ∀ e exited lingering, u.failure = some e → u.phase = .down exited lingering →
            LateFault config online pid gs d.handler.policy (r.turns es) e ∧
            (u.running = false ∧ u.openChannels = 0 ∧ u.activeReaders = 0 ∧ u.pool.queue = [] ∧
              ∀ i, .running i ∉ u.pool.workers) ∧
            u.pidFile = none ∧ u.files = gs ∧
            ∀ path, KeptByExclusion config.exclusion fs u.files path := by
  refine ⟨fun gs o e h => ?_, fun gs o r h => ?_⟩
  · -- it fails before it has readers
    rcases setOut_cases config online pid d fs with ⟨gs', e', hset, hprepare, hfault⟩ |
      ⟨gs', o', r', hset, -⟩
    · rw [hset] at h
      cases h
      exact ⟨hprepare, hfault, rfl, rfl, hfault.kept⟩
    · rw [hset] at h
      cases h
  · -- it has readers, and may fail from then on
    rcases setOut_cases config online pid d fs with ⟨gs', e', hset, -⟩ |
      ⟨gs', o', r', hset, hprepare, hcleared, hcount, hcpus⟩
    · rw [hset] at h
      cases h
    · rw [hset] at h
      cases h
      obtain ⟨hpoised, hlength, -, hpath, hpid, hfiles⟩ := Poised.of_prepare hprepare
      have hdispatcher := (prepare_ok hprepare).1
      have hopen : r.openChannels = r.readers.length :=
        List.countP_eq_length.mpr fun x hx => by simp [Reader.isOpen, (hpoised.fresh x hx).stage]
      refine ⟨hprepare, hcleared, hcount.trans hopen.symm, fun es hpatient => ?_⟩
      intro u e exited lingering hfailure hphase
      have ho : u.Orderly := hpoised.orderly.run es
      have hstarting : Starting d.handler.policy (r.turns es) u :=
        hdispatcher ▸ (Starting.of_poised hpoised).run hpoised.orderly es
      have hfiled : r.Filed u := (Filed.of_poised hpoised).run hpoised.orderly es
      -- with patience, it is down only when every reader has gone
      have hexited : u.phase.exited? = some true := by
        have hpatience : u.phase.exited? ≠ some false :=
          exited?_run (by simp [hpoised.phase, Phase.exited?]) hpatient
        rw [hphase] at hpatience ⊢
        cases exited
        · exact (hpatience rfl).elim
        · rfl
      -- it has failed, so it has made no PID file
      have hkept : u.pidFile = none ∧ u.files = gs := by
        cases hfiled.marking with
        | unmarked _ hnone hsame => exact ⟨hnone, hsame.trans hfiles⟩
        | marked hsound | released hsound => simp [hsound] at hfailure
      refine ⟨hstarting.lateFault ?_ hfailure ?_, ⟨?_, ho.idle_of_exited hexited⟩, hkept.1, hkept.2,
        ?_⟩
      · -- there is one reader for each channel
        rw [length_readers_run, hlength, hcpus, RelayConfig.readerCount]
      · -- the PID file is to be made among these files
        rw [← hpath, ← hpid, ← hfiles]
        exact hfiled.unwritten
      · -- the flag is cleared
        rw [ho.running, hphase]
        rfl
      · -- nothing but the request for exclusion has changed a file
        rw [hkept.2]
        exact .of_apply hcleared.asked

/-- A PID file that is to go into a directory that is not there. -/
def unwrittenConfig : RelayConfig := { oneCpuConfig with pidFile := some "run/relay.pid" }

def unwrittenRelay : Relay Unit := { oneCpuRelay with pidPath := some "run/relay.pid" }

/-- A second cpu has no channels, and a PID file cannot be written. -/
theorem registration_all_or_nothing_unwritten :
    (EarlyFault { unwrittenConfig with cpus := some 2 } 1 oneCpuFiles oneCpuFiles
        (.channel "short1" .notFound) ∧
      unwrittenRelay.Patient (startEvents ++ stopEvents) ∧
      LateFault unwrittenConfig 1 1 oneCpuFiles Handler.ignore.policy
        (unwrittenRelay.turns (startEvents ++ stopEvents))
        (.pidFile "run/relay.pid" .notFound)) ∧
      (unwrittenRelay.run (startEvents ++ stopEvents)).openChannels = 0 ∧
      (unwrittenRelay.run (startEvents ++ stopEvents)).files = oneCpuFiles := by
  have hearly : setOut { unwrittenConfig with cpus := some 2 } 1 1
      { handler := Handler.ignore, state := () } oneCpuFiles =
        (oneCpuFiles, {}, .error (.channel "short1" .notFound)) := by cbv
  have hready : setOut unwrittenConfig 1 1 { handler := Handler.ignore, state := () } oneCpuFiles =
      (oneCpuFiles, ⟨oneCpuRelay.readers.map (·.channel), 2⟩, .ok unwrittenRelay) := by cbv
  have hpatient : unwrittenRelay.Patient (startEvents ++ stopEvents) := by
    intro before after hes
    have hmem : Event.timeout ∈ startEvents ++ stopEvents := by simp [hes]
    simp [startEvents, stopEvents] at hmem
  have hfailure : (unwrittenRelay.run (startEvents ++ stopEvents)).failure =
      some (.pidFile "run/relay.pid" .notFound) := by decide +kernel
  have hphase : (unwrittenRelay.run (startEvents ++ stopEvents)).phase = .down true 0 := by
    decide +kernel
  obtain ⟨-, hfault, -⟩ := (registration_all_or_nothing _ _ _ _ _).1 _ _ _ hearly
  obtain ⟨-, -, -, hruns⟩ := (registration_all_or_nothing _ _ _ _ _).2 _ _ _ hready
  obtain ⟨hlate, ⟨-, hopen, -⟩, -, hfiles, -⟩ := hruns _ hpatient _ _ _ hfailure hphase
  exact ⟨⟨hfault, hpatient, hlate⟩, hopen, hfiles⟩

/-- The files where the PID file of another process is there and no channel is. -/
def othersFiles : Files where
  entries := [(["relay.pid"], .file (Text.Utf8.encode "4242"))]

/-- Both readers wait for their channels when the PID file cannot be written, and are given up. -/
def impatientEvents : List Event :=
  startEvents.dropLast ++ [.reader 0 .go, .reader 1 .go, .reader 0 (.loop (.flag true)),
    .reader 1 (.loop (.flag true)), .main, .timeout, .main, .main, .main, .main]

set_option maxRecDepth 8000 in
/-- Where the PID file is also the file of the request for exclusion, a registration that fails has
changed it. Readers that still wait for their channels can be left too, although none of them is in
a call to the handler. -/
theorem failed_registration_can_leave_traces :
    (¬ ∀ (config : RelayConfig) (online : ℕ) (pid : UInt32) (d : Dispatcher Unit) (fs gs : Files)
        (e : RelayError) (path : String), prepare config online pid d fs = (gs, .error e) →
          config.pidFile = some path → gs.find path = fs.find path) ∧
      ¬ ∀ (r : Relay Unit) (es : List Event) (e : RelayError) (exited : Bool) (lingering : ℕ),
        r.Poised → (r.run es).failure = some e → (r.run es).phase = .down exited lingering →
          (∀ x ∈ (r.run es).readers, x.stage = .looping .polling ∧ x.todo = []) →
            (r.run es).activeReaders = 0 := by
  refine ⟨fun h => ?_, fun h => ?_⟩
  · have hprepare : prepare
        { oneCpuConfig with pidFile := some "relay.pid", exclusion := some "relay.pid" } 1 1
        { handler := Handler.ignore, state := () } othersFiles =
          (⟨[], [(["relay.pid"], .file Exclusion.request)]⟩,
            .error (.channel "short0" .notFound)) := by
      cbv
    have hfind := h _ _ _ _ _ _ _ "relay.pid" hprepare rfl
    revert hfind
    decide +kernel
  · have hactive := h unwrittenRelay impatientEvents (.pidFile "run/relay.pid" .notFound) false 2
      (poised_oneCpuRelay _) (by decide +kernel) (by decide +kernel) (by decide +kernel)
    revert hactive
    decide +kernel

end Relay

end ProvenanceRelay
