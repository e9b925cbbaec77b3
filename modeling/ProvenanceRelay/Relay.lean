import ProvenanceRelay.Exclusion
import ProvenanceRelay.PidFile
import ProvenanceRelay.Reader
import ProvenanceRelay.Relay.Error
import ProvenanceRelay.WorkerPool

/-!
A relay from its registration to its end.

The registering thread hands a reader for each channel to a pool, waits until every one of them has
told that it has started, and then writes the PID file. Stopping, or any failure on the way, clears
the running flag, waits for the readers to end, closes the pool and takes the PID file away. The
threads go on in steps, in any order.
-/

namespace ProvenanceRelay

namespace Relay

/-- Where the thread that registers and stops the relay is. -/
inductive Phase where
  /-- Handing readers to the pool, of which so many are handed over. -/
  | submitting (next : Nat)
  /-- Waiting to hear from the readers, of which so many have started. -/
  | awaiting (started : Nat)
  | writing
  | up
  /-- The running flag is cleared, and the pool is yet to become idle. -/
  | waiting
  | counting (exited : Bool)
  | destroying (exited : Bool) (lingering : Nat)
  | joining (exited : Bool) (lingering : Nat)
  | releasing (exited : Bool) (lingering : Nat)
  | down (exited : Bool) (lingering : Nat)
  deriving DecidableEq, Repr

inductive Event where
  /-- The registering thread goes on. -/
  | main
  /-- It has waited for long enough. -/
  | timeout
  /-- It is told to stop the relay. -/
  | stop
  | take (w : Nat)
  | reader (w : Nat) (n : Reader.News)
  | uncount (w : Nat)
  | leave (w : Nat)

end Relay

structure Relay (σ : Type) where
  cpus : Nat
  pid : UInt32
  /-- Where the PID file goes, if there is to be one. -/
  pidPath : Option String
  /-- The tasks of the pool are indices of readers. -/
  readers : List Reader
  pool : WorkerPool Nat
  dispatcher : Dispatcher σ
  files : Files
  running : Bool := true
  /-- What the readers have told and is yet to be heard. -/
  acks : List Reader.Ack := []
  /-- The PID file that the relay holds. -/
  pidFile : Option String := none
  phase : Relay.Phase := .submitting 0
  failure : Option RelayError := none

namespace Relay

variable {σ : Type}

/-! ### Before there are readers -/

def openAll (fs : Files) : List Channel → Except RelayError Unit
  | [] => .ok ()
  | c :: cs =>
    match Channel.openable fs c.path with
    | .ok () => openAll fs cs
    | .error e => .error (.channel c.path e)

/-- What the names of the readers' threads begin with. -/
def threadStem : String := "provrelay-reader"

/-- Everything that comes before the first reader: the files after it, and the relay if nothing
has failed. -/
def prepare (config : RelayConfig) (online : Nat) (pid : UInt32) (d : Dispatcher σ) (fs : Files) :
    Files × Except RelayError (Relay σ) :=
  match Exclusion.apply config.exclusion fs with
  | .error e => (fs, .error (.exclusion e))
  | .ok fs =>
    let cpus := config.cpus.elim online (·.toNat)
    if maxCpus < cpus then (fs, .error (.tooManyCpus cpus maxCpus))
    else
      let channels := Channel.all config.shortPrefix config.longPrefix cpus
      match openAll fs channels with
      | .error e => (fs, .error e)
      | .ok () =>
        match WorkerPool.new threadStem (2 * cpus) with
        | .error e => (fs, .error (.pool e))
        | .ok pool =>
          let reader (c : Channel) : Reader :=
            { channel := c, perDrain := config.reader.recordsPerDrain, pins := config.pinReaders }
          (fs, .ok {
            cpus, pid, pool, files := fs
            pidPath := config.pidFile
            readers := channels.map reader
            dispatcher := d })

/-! ### Views -/

def openChannels (r : Relay σ) : Nat := r.readers.countP (·.isOpen)

/-- How many readers are in the pool, be it waiting or at work. -/
def activeReaders (r : Relay σ) : Nat := r.pool.pending

/-- Whether a reader can still be heard of. -/
def anyCanTell (r : Relay σ) : Bool := r.readers.any (·.stage.canTell)

/-- How stopping has ended. -/
def stopResult : Phase → Except RelayError Unit
  | .down false lingering => .error (.stopTimeout lingering)
  | _ => .ok ()

/-! ### The registering thread -/

def halt (r : Relay σ) : Relay σ := { r with running := false, phase := .waiting }

def fail (r : Relay σ) (e : RelayError) : Relay σ := { r.halt with failure := some e }

def submitNext (r : Relay σ) (next : Nat) : Relay σ :=
  if next < r.readers.length then
    match r.pool.submit next with
    | .ok pool => { r with pool, phase := .submitting (next + 1) }
    | .error e => r.fail (.pool e)
  else { r with phase := .awaiting 0 }

def hear (r : Relay σ) (started : Nat) : Relay σ :=
  if started < r.readers.length then
    match r.acks with
    | .started :: acks => { r with acks, phase := .awaiting (started + 1) }
    | .refused cpu e :: acks => { r with acks }.fail (.affinity cpu e)
    | [] =>
      if r.anyCanTell then r
      else r.fail (.startup (.exited started r.readers.length))
  else { r with phase := .writing }

def writePid (r : Relay σ) : Relay σ :=
  match r.pidPath with
  | none => { r with phase := .up }
  | some path =>
    match PidFile.create r.files path r.pid with
    | .ok files => { r with files, pidFile := some path, phase := .up }
    | .error e => r.fail (.pidFile path e)

def releasePid (r : Relay σ) : Relay σ :=
  match r.pidFile with
  | none => r
  | some path => { r with files := PidFile.release r.files path, pidFile := none }

/-- The next step of the registering thread, if there is one that it can take. -/
def main? (r : Relay σ) : Option (Relay σ) :=
  match r.phase with
  | .submitting next => some (r.submitNext next)
  | .awaiting started =>
    if started < r.readers.length ∧ r.acks = [] ∧ r.anyCanTell = true then none
    else some (r.hear started)
  | .writing => some r.writePid
  | .up => none
  | .waiting => if r.pool.isIdle then some { r with phase := .counting true } else none
  | .counting exited => some { r with phase := .destroying exited r.pool.pending }
  | .destroying exited lingering =>
    some { r with pool := r.pool.close, phase := .joining exited lingering }
  | .joining exited lingering =>
    -- workers that have tasks left are not waited for
    if r.pool.isDeserted ∨ r.pool.pending ≠ 0 then
      some { r with phase := .releasing exited lingering }
    else none
  | .releasing exited lingering => some { r.releasePid with phase := .down exited lingering }
  | .down _ _ => none

/-- A wait of the registering thread ends for good, if what it waits for has not come. -/
def expire (r : Relay σ) : Relay σ :=
  match r.phase, r.main? with
  | .awaiting started, none => r.fail (.startup (.timeout started r.readers.length))
  | .waiting, none => { r with phase := .counting false }
  | _, _ => r

def requestStop (r : Relay σ) : Relay σ :=
  match r.phase with
  | .up => r.halt
  | _ => r

/-- Lets go of the relay. It is told to stop unless it has been, and in the end its pool and its PID
file go with it. -/
def letGo (r : Relay σ) : Relay σ :=
  match r.phase with
  | .up => r.requestStop
  | .down _ _ => { r.releasePid with pool := r.pool.close }
  | _ => r

/-! ### The readers -/

/-- A reader sees the running flag as it is. -/
def see (r : Relay σ) : Reader.News → Reader.News
  | .loop (.flag _) => .loop (.flag r.running)
  | n => n

def apply (r : Relay σ) (w : Nat) : Option Reader.Effect → Relay σ
  | some (.act a) => { r with dispatcher := r.dispatcher.perform a }
  | some (.tell a) => { r with acks := r.acks ++ [a] }
  | some .close => { r with pool := r.pool.finish w }
  | none => r

def readerOf? (r : Relay σ) (w : Nat) : Option (Nat × Reader) :=
  match r.pool.workers[w]? with
  | some (.running i) => r.readers[i]?.map fun x => (i, x)
  | _ => none

def stepReader (r : Relay σ) (w : Nat) (n : Reader.News) : Relay σ :=
  match r.readerOf? w with
  | none => r
  | some (i, x) =>
    let (x, effect) := x.step r.dispatcher.handler.policy (r.see n)
    { r with readers := r.readers.set i x }.apply w effect

/-! ### Steps -/

/-- An event that cannot happen changes nothing. -/
def step (r : Relay σ) : Event → Relay σ
  | .main => r.main?.getD r
  | .timeout => r.expire
  | .stop => r.requestStop
  | .take w => { r with pool := r.pool.take w }
  | .reader w n => r.stepReader w n
  | .uncount w => { r with pool := r.pool.uncount w }
  | .leave w => { r with pool := r.pool.leave w }

def run (r : Relay σ) (es : List Event) : Relay σ := es.foldl step r

@[simp] theorem run_nil (r : Relay σ) : r.run [] = r := rfl

@[simp] theorem run_cons (r : Relay σ) (e : Event) (es : List Event) :
    r.run (e :: es) = (r.step e).run es := rfl

theorem run_append (r : Relay σ) (es fs : List Event) :
    r.run (es ++ fs) = (r.run es).run fs := by
  simp [run, List.foldl_append]

end Relay

end ProvenanceRelay
