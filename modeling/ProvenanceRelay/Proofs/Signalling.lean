import Mathlib
import ProvenanceRelay.CommandLine.World
import ProvenanceRelay.Proofs.PidText

/-!
Whom the commands of the program signal.

Only `stop` sends a signal, and only one: to the number that the PID file denotes, if it is one that
processes can have. Zero passes for such a number, though no process has it, and the system takes it
for the group of whoever signals.
-/

namespace ProvenanceRelay.CommandLine

variable {α β : Type} {w : World} {config : String} {force : Bool}

/-! ### Acts on a system -/

namespace World

/-- What an act of a command comes to, and the system after it. -/
def after (w : World) (act : ExceptT Failure (StateM World) α) : Except Failure α × World :=
  act.run.run w

lemma after_bind (w : World) (act : ExceptT Failure (StateM World) α)
    (next : α → ExceptT Failure (StateM World) β) :
    w.after (act >>= next) =
      match w.after act with
      | (.ok a, w) => w.after (next a)
      | (.error f, w) => (.error f, w) := by
  unfold after
  rw [ExceptT.run_bind, StateT.run_bind]
  rcases act.run.run w with ⟨_ | a, v⟩ <;> rfl

@[simp] lemma after_pure (w : World) (a : α) : w.after (pure a) = (.ok a, w) := rfl

@[simp] lemma after_throw (w : World) (f : Failure) :
    w.after (throw f : ExceptT Failure (StateM World) α) = (.error f, w) := rfl

@[simp] lemma after_isThere (w : World) (path : String) :
    w.after (liftM (world.isThere path)) = (.ok (w.files.exists? path), w) := rfl

@[simp] lemma after_readText (w : World) (path : String) :
    w.after (liftM (world.readText path)) = (.ok (w.files.readText path), w) := rfl

@[simp] lemma after_signal (w : World) (s : Signal) (pid : UInt32) :
    w.after (liftM (world.signal s pid)) = (.ok (w.isAlive pid), w.signal s pid) := rfl

def say (w : World) (line : String) : World := { w with printed := w.printed ++ line ++ "\n" }

@[simp] lemma after_print (w : World) (line : String) :
    w.after (liftM (world.print line)) = (.ok (), w.say line) := rfl

/-! ### The PID file of a command -/

/-- The configuration that a command goes by. -/
def config? (w : World) (path : String) : Except Failure Config :=
  if w.files.exists? path then
    match Config.ofFile path (w.files.readText path) with
    | .ok c => .ok c
    | .error e => .error ("Failed to load configuration" :: configFailure e)
  else .ok {}

@[simp] lemma after_loadConfig (w : World) (path : String) :
    w.after (loadConfig world path) = (w.config? path, w) := by
  simp only [loadConfig, config?, after_bind, after_isThere]
  split
  · simp only [after_bind, after_readText]
    cases Config.ofFile path (w.files.readText path) <;> rfl
  · rfl

/-- The PID file of the configuration is a text that denotes the number. -/
def Names (w : World) (config : String) (n : ℕ) : Prop :=
  ∃ c s, w.config? config = .ok c ∧ w.files.readText c.relay.pidFile = .ok s ∧ PidFile.Denotes s n

lemma read_eq_some_iff {c : Config} (hc : w.config? config = .ok c) {pid : UInt32} :
    PidFile.read w.files c.relay.pidFile = .ok (some pid) ↔ w.Names config pid.toNat := by
  have hnames : w.Names config pid.toNat ↔
      ∃ s, w.files.readText c.relay.pidFile = .ok s ∧ PidFile.Denotes s pid.toNat := by
    simp [Names, hc]
  simp only [hnames, PidFile.read, ← PidFile.parse_eq_ok_iff]
  rcases htext : w.files.readText c.relay.pidFile with e | s
  · cases e <;> simp [PidFile.ofText]
  · cases hparse : PidFile.parse s <;> simp [PidFile.ofText, hparse]

end World

lemma toNat_ofNat_of_le {n : ℕ} (h : n ≤ maxProcess) : (UInt32.ofNat n).toNat = n := by
  have hmax : maxProcess < 2 ^ 32 := by decide
  exact UInt32.toNat_ofNat_of_lt' (h.trans_lt hmax)

namespace World.Names

variable {n m : ℕ}

lemma exists_config (hn : w.Names config n) : ∃ c, w.config? config = .ok c :=
  hn.imp fun _ hs => hs.choose_spec.1

lemma read {c : Config} (hn : w.Names config n) (hc : w.config? config = .ok c)
    (hle : n ≤ maxProcess) :
    PidFile.read w.files c.relay.pidFile = .ok (some (UInt32.ofNat n)) := by
  rwa [World.read_eq_some_iff hc, toNat_ofNat_of_le hle]

lemma eq (hn : w.Names config n) (hnle : n ≤ maxProcess) (hm : w.Names config m)
    (hmle : m ≤ maxProcess) : n = m := by
  obtain ⟨c, hc⟩ := hn.exists_config
  have hsame := (hn.read hc hnle).symm.trans (hm.read hc hmle)
  rw [Except.ok.injEq, Option.some.injEq, ← UInt32.toNat_inj] at hsame
  rwa [toNat_ofNat_of_le hnle, toNat_ofNat_of_le hmle] at hsame

end World.Names

/-! ### Acts that send no signal -/

/-- The act sends no signal. -/
def Quiet (act : ExceptT Failure (StateM World) α) : Prop :=
  ∀ w : World, (w.after act).2.signals = w.signals

namespace Quiet

lemma throw (f : Failure) : Quiet (throw f : ExceptT Failure (StateM World) α) := fun _ => rfl

lemma print (line : String) : Quiet (liftM (world.print line)) := fun _ => rfl

lemma signals_bind {act : ExceptT Failure (StateM World) α}
    {next : α → ExceptT Failure (StateM World) β} (hnext : ∀ a, Quiet (next a)) (w : World) :
    (w.after (act >>= next)).2.signals = (w.after act).2.signals := by
  rw [World.after_bind]
  split
  · next a v hafter => rw [hnext a v, hafter]
  · next f v hafter => rw [hafter]

lemma bind {act : ExceptT Failure (StateM World) α} {next : α → ExceptT Failure (StateM World) β}
    (hact : Quiet act) (hnext : ∀ a, Quiet (next a)) : Quiet (act >>= next) :=
  fun w => (signals_bind hnext w).trans (hact w)

lemma loadConfig (path : String) : Quiet (loadConfig world path) := by
  intro w
  rw [World.after_loadConfig]

lemma awaitGone (path : String) (n : ℕ) : Quiet (liftM (awaitGone world path n)) := by
  intro w
  change (CommandLine.awaitGone world path n w).2.signals = w.signals
  induction n with
  | zero => rfl
  | succ n ih =>
    rw [CommandLine.awaitGone]
    change ((if w.files.exists? path then _ else _ : StateM World Bool) w).2.signals = w.signals
    split
    · exact ih
    · rfl

end Quiet

/-! ### Stopping -/

@[simp] lemma World.signals_signal (w : World) (s : Signal) (pid : UInt32) :
    (w.signal s pid).signals = w.signals ++ [(s, pid)] := by
  unfold World.signal
  dsimp only
  split
  · rfl
  · split
    · rfl
    · split <;> rfl

lemma World.after_signalProcess (w : World) (s : Signal) (pid : UInt32) :
    w.after (signalProcess world s pid) =
      if maxProcess < pid.toNat then (.error ["Invalid pid " ++ pidText pid], w)
      else if w.isAlive pid then (.ok (), w.signal s pid)
      else (.error ["Failed to signal process " ++ pidText pid], w.signal s pid) := by
  simp only [signalProcess]
  split_ifs with hlarge halive <;> simp [after_bind, *]

lemma stop_refuses (hnone : ∀ n ≤ maxProcess, ¬ w.Names config n) :
    ∃ f, w.after (stop world config force) = (.error f, w) := by
  simp only [stop, World.after_bind, World.after_loadConfig]
  cases hc : w.config? config with
  | error f => exact ⟨f, rfl⟩
  | ok c =>
    simp only [World.after_readText]
    cases hread : PidFile.ofText (w.files.readText c.relay.pidFile) with
    | error e => exact ⟨_, rfl⟩
    | ok pid? =>
      cases pid? with
      | none => exact ⟨_, rfl⟩
      | some pid =>
        have hlarge : maxProcess < pid.toNat :=
          lt_of_not_ge fun hle => hnone _ hle ((World.read_eq_some_iff hc).mp hread)
        simp only [World.after_bind, World.after_signalProcess, if_pos hlarge]
        exact ⟨_, rfl⟩

lemma signals_stop {n : ℕ} (hle : n ≤ maxProcess) (hn : w.Names config n) :
    (w.after (stop world config force)).2.signals =
      w.signals ++ [(if force then .kill else .term, UInt32.ofNat n)] := by
  obtain ⟨c, hc⟩ := hn.exists_config
  have hread := hn.read hc hle
  rw [PidFile.read] at hread
  rw [stop, World.after_bind, World.after_loadConfig, hc]
  dsimp only
  rw [World.after_bind, World.after_readText]
  dsimp only
  rw [hread]
  refine (Quiet.signals_bind (fun _ => .bind (.print _) fun _ => ?_) w).trans ?_
  · -- what comes after the signal
    split
    · exact fun _ => rfl
    · refine .bind (.awaitGone _ _) fun gone => ?_
      split
      · exact .print _
      · exact .throw _
  · rw [World.after_signalProcess, toNat_ofNat_of_le hle, if_neg hle.not_gt]
    split <;> exact World.signals_signal _ _ _

/-! ### The status -/

def runningLine (n : ℕ) : String := "Status: running (pid " ++ Text.Numeral.decimal n ++ ")"

/-- What `status` says of a process that is not there. -/
def staleLine (n : ℕ) : String :=
  "Status: stale PID file (pid " ++ Text.Numeral.decimal n ++ " not running)"

/-- The letter that tells the lines apart. -/
lemma runningLine_getElem? (n : ℕ) : (runningLine n).toList[8]? = some 'r' := by
  unfold runningLine
  rw [String.append_assoc, String.toList_append, List.getElem?_append_left (by decide)]
  decide

lemma staleLine_getElem? (n : ℕ) : (staleLine n).toList[8]? = some 's' := by
  unfold staleLine
  rw [String.append_assoc, String.toList_append, List.getElem?_append_left (by decide)]
  decide

lemma ne_runningLine {line : String} (h : line.toList[8]? ≠ some 'r') (n : ℕ) :
    line ≠ runningLine n := by
  rintro rfl
  exact h (runningLine_getElem? n)

lemma runningLine_injective : Function.Injective runningLine := by
  intro n m h
  unfold runningLine at h
  rw [String.append_left_inj, String.append_right_inj] at h
  exact Text.Numeral.decimal_injective h

namespace World

def headed (w : World) (path : String) : World :=
  ((w.say "Provrelay Daemon Status").say "=======================").say ("PID file: " ++ path)

lemma say_printed_inj {a b : String} : (w.say a).printed = (w.say b).printed ↔ a = b := by
  unfold say
  rw [String.append_left_inj, String.append_right_inj]

lemma printed_ne_say (line : String) : w.printed ≠ (w.say line).printed := by
  intro h
  have hlength := congrArg String.length h
  unfold say at hlength
  rw [String.length_append, String.length_append] at hlength
  have : 0 < "\n".length := by decide
  omega

lemma after_isRunning (w : World) (pid : UInt32) :
    w.after (liftM (isRunning world pid)) = (.ok (pid.toNat ≤ maxProcess ∧ w.isAlive pid), w) := by
  rw [isRunning]
  split
  · next h => simp [h.not_ge]
  · next h => simp [Nat.le_of_not_lt h]; rfl

end World

lemma after_status {c : Config} (hc : w.config? config = .ok c) :
    (w.after (status world config)).2 =
      match PidFile.read w.files c.relay.pidFile with
      | .error _ => w.headed c.relay.pidFile
      | .ok none => (w.headed c.relay.pidFile).say "Status: stopped"
      | .ok (some pid) =>
        (w.headed c.relay.pidFile).say
          (if pid.toNat ≤ maxProcess ∧ w.isAlive pid then runningLine pid.toNat
            else staleLine pid.toNat) := by
  simp only [status, World.after_bind, World.after_loadConfig, hc, World.after_print,
    World.after_readText]
  rw [← World.headed, PidFile.read]
  have hfiles : (w.headed c.relay.pidFile).files = w.files := rfl
  rw [hfiles]
  cases hread : PidFile.ofText (w.files.readText c.relay.pidFile) with
  | error e => rfl
  | ok pid? =>
    cases pid? with
    | none => rfl
    | some pid =>
      have halive : (w.headed c.relay.pidFile).isAlive pid = w.isAlive pid := rfl
      simp only [World.after_bind, World.after_isRunning, halive, decide_eq_true_eq]
      split <;> rfl

/-- What `status` puts out says that a process runs only if it does. -/
lemma printed_status_iff {c : Config} (hc : w.config? config = .ok c) (n : ℕ) :
    (w.after (status world config)).2.printed =
        ((w.headed c.relay.pidFile).say (runningLine n)).printed ↔
      n ≤ maxProcess ∧ w.Names config n ∧ w.isAlive (UInt32.ofNat n) := by
  have hnamed (hn : n ≤ maxProcess ∧ w.Names config n ∧ w.isAlive (UInt32.ofNat n)) :=
    hn.2.1.read hc hn.1
  rw [after_status hc]
  cases hread : PidFile.read w.files c.relay.pidFile with
  | error e =>
    refine ⟨fun h => absurd h (World.printed_ne_say _), fun hn => ?_⟩
    simpa [hread] using hnamed hn
  | ok pid? =>
    cases pid? with
    | none =>
      refine ⟨fun h => ?_, fun hn => by simpa [hread] using hnamed hn⟩
      exact absurd (World.say_printed_inj.mp h) (ne_runningLine (by decide) n)
    | some pid =>
      dsimp only
      rw [World.say_printed_inj]
      constructor
      · split
        · -- the process is there
          next h =>
          intro hline
          obtain rfl := runningLine_injective hline
          rw [UInt32.ofNat_toNat]
          exact ⟨h.1, (World.read_eq_some_iff hc).mp hread, h.2⟩
        · -- it is not there, and the line is another one
          have hs : (staleLine pid.toNat).toList[8]? ≠ some 'r' := by
            rw [staleLine_getElem?]
            decide
          exact fun hline => absurd hline (ne_runningLine hs n)
      · intro hn
        have hpid : UInt32.ofNat n = pid := by simpa [hread, eq_comm] using hnamed hn
        have htoNat : pid.toNat = n := by rw [← hpid, toNat_ofNat_of_le hn.1]
        rw [htoNat, ← hpid, if_pos ⟨hn.1, hn.2.2⟩]

/-! ### Every command -/

lemma quiet_serve (c : Config) : Quiet (ExceptT.mk (world.serve c)) := by
  intro w
  change (w.serve c).2.signals = w.signals
  unfold World.serve
  split <;> rfl

lemma quiet_writeText (path text : String) : Quiet (liftM (world.writeText path text)) := by
  intro w
  change (world.writeText path text w).2.signals = w.signals
  unfold world
  dsimp only
  split
  · split <;> rfl
  · rfl

lemma quiet_isRunning (pid : UInt32) : Quiet (liftM (isRunning world pid)) := by
  intro w
  rw [World.after_isRunning]

lemma quiet_generate (path : String) (force : Bool) : Quiet (generate world path force) := by
  refine .bind (fun _ => rfl) fun there => ?_
  dsimp only
  split
  · exact fun _ => rfl
  · split
    · exact .throw _
    · refine .bind (quiet_writeText _ _) fun written => ?_
      split
      · exact .throw _
      · exact .print _

/-- No command but `stop` sends a signal. -/
lemma quiet_perform {c : Command} (h : ∀ config force, c ≠ .stop config force) :
    Quiet (perform world c) := by
  cases c with
  | start args =>
    exact .bind (.loadConfig _) fun c => .bind (fun _ => rfl) fun _ => quiet_serve _
  | stop config force => exact absurd rfl (h config force)
  | status config =>
    refine .bind (.loadConfig _) fun c => ?_
    refine .bind (.print _) fun _ => .bind (.print _) fun _ => .bind (.print _) fun _ => ?_
    refine .bind (fun _ => rfl) fun text => ?_
    split
    · exact .throw _
    · exact .print _
    · refine .bind (quiet_isRunning _) fun running => ?_
      split <;> exact .print _
  | validate config =>
    refine .bind (fun _ => rfl) fun text => ?_
    split
    · exact .throw _
    · exact .bind (fun _ => rfl) fun _ => .print _
  | generate output force => exact quiet_generate output force
  | help => exact .print _
  | version => exact .print _

lemma run_eq {args : List String} {c : Command} (h : command args = .ok c) (w : World) :
    run args w =
      match w.after (perform world c) with
      | (.ok (), w) => (.success, w)
      | (.error f, w) => (.failure f, w) := by
  unfold run runOn World.after
  rw [h]
  change StateT.run (_ >>= _) w = _
  rw [StateT.run_bind]
  rcases StateT.run (perform world c).run w with ⟨_ | _, v⟩ <;> rfl

lemma snd_run {args : List String} {c : Command} (h : command args = .ok c) (w : World) :
    (run args w).2 = (w.after (perform world c)).2 := by
  rw [run_eq h]
  rcases w.after (perform world c) with ⟨_ | _, v⟩ <;> rfl

/-- `stop` signals the number that the PID file denotes if it is one that processes can have or
zero, and else fails with the system as it was. So it signals a process, and not a group, as long as
the file does not denote zero. `status` says that there is a process with the number just if there
is one and it is such a number. Nothing else signals. -/
theorem signals_named_number (args : List String) (w : World) :
    (∀ config force, command args = .ok (.stop config force) →
      ∃ sent, (run args w).2.signals = w.signals ++ sent ∧
        (∀ n ≤ maxProcess, w.Names config n →
          sent = [(if force then .kill else .term, UInt32.ofNat n)]) ∧
        ((∀ n ≤ maxProcess, ¬ w.Names config n) →
          sent = [] ∧ ∃ f, run args w = (.failure f, w)) ∧
        ((∀ x ∈ sent, 1 ≤ x.2.toNat) ↔ ¬ w.Names config 0)) ∧
    (∀ config, command args = .ok (.status config) →
      (∀ c, w.config? config = .ok c → ∀ n,
        (run args w).2.printed = ((w.headed c.relay.pidFile).say (runningLine n)).printed ↔
          n ≤ maxProcess ∧ w.Names config n ∧ w.isAlive (UInt32.ofNat n)) ∧
      ∀ f, w.config? config = .error f → run args w = (.failure f, w)) ∧
    ((∀ config force, command args ≠ .ok (.stop config force)) →
      (run args w).2.signals = w.signals) := by
  refine ⟨fun config force hstop => ?_, fun config hstatus => ⟨fun c hc n => ?_, fun f hf => ?_⟩,
    fun hother => ?_⟩
  · by_cases hnamed : ∃ n ≤ maxProcess, w.Names config n
    · -- the number is zero, or one that processes can have
      obtain ⟨n, hle, hn⟩ := hnamed
      have hsent : (run args w).2.signals =
          w.signals ++ [(if force then .kill else .term, UInt32.ofNat n)] := by
        rw [snd_run hstop]
        exact signals_stop hle hn
      refine ⟨_, hsent, fun m hm hnm => by rw [hn.eq hle hnm hm], fun h => absurd hn (h n hle), ?_⟩
      have hzero : w.Names config 0 ↔ n = 0 :=
        ⟨fun h => hn.eq hle h (Nat.zero_le _), fun h => h ▸ hn⟩
      rw [List.forall_mem_singleton, hzero, toNat_ofNat_of_le hle, Nat.one_le_iff_ne_zero]
    · -- there is no such number, and nothing is sent
      push Not at hnamed
      obtain ⟨f, hf⟩ := stop_refuses hnamed
      have hrun : run args w = (.failure f, w) := by rw [run_eq hstop, perform, hf]
      refine ⟨[], by rw [hrun, List.append_nil], fun n hle hn => absurd hn (hnamed n hle),
        fun _ => ⟨rfl, f, hrun⟩, ?_⟩
      exact iff_of_true (List.forall_mem_nil _) (hnamed 0 (Nat.zero_le _))
  · -- a running process is told just if it is there
    rw [snd_run hstatus]
    exact printed_status_iff hc n
  · -- without a configuration the command fails
    rw [run_eq hstatus, perform, status, World.after_bind, World.after_loadConfig, hf]
  · -- neither another command nor a command line that is refused signals
    cases hcommand : command args with
    | error stopped =>
      unfold run runOn
      rw [hcommand]
      cases stopped <;> rfl
    | ok c =>
      have hc : ∀ config force, c ≠ .stop config force := by
        rintro config force rfl
        exact hother config force hcommand
      rw [snd_run hcommand]
      exact quiet_perform hc w

/-- A system whose PID file holds a zero, which stands for the group of whoever signals. -/
def zeroed : World where
  files := { entries := [(["run"], .directory), (["run", "provenance-service.pid"], .file [48])] }
  nextPid := 2
  others pid := pid = 0

/-- The group of whoever asks is signalled, and its number is told as that of a daemon. -/
theorem own_group_signalled :
    (run ["stop"] zeroed).2.signals = [(.term, 0)] ∧
      (run ["stop", "--force"] zeroed).2.signals = [(.kill, 0)] ∧
      (run ["status"] zeroed).2.printed =
        ((zeroed.headed "/run/provenance-service.pid").say (runningLine 0)).printed := by
  refine ⟨?_, ?_, ?_⟩ <;> decide +kernel

end ProvenanceRelay.CommandLine
