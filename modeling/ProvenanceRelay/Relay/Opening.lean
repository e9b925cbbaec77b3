import ProvenanceRelay.Relay

/-!
What a registration holds before it has readers.

Channels that are open add to a count. They are held in a row until each has its reader, and a
registration that fails before that closes all of them.
-/

namespace ProvenanceRelay

structure Opening where
  held : List Channel := []
  /-- How many channels are open. -/
  count : Nat := 0

namespace Opening

def hold (o : Opening) (c : Channel) : Opening := ⟨o.held ++ [c], o.count + 1⟩

def giveUp (o : Opening) : Opening := ⟨[], o.held.foldl (fun n _ => n - 1) o.count⟩

/-- Opens channels in order, up to the first that cannot be opened. -/
def openEach (fs : Files) (o : Opening) : List Channel → Opening × Except RelayError Unit
  | [] => (o, .ok ())
  | c :: cs =>
    match Channel.openable fs c.path with
    | .ok () => (o.hold c).openEach fs cs
    | .error e => (o.giveUp, .error (.channel c.path e))

end Opening

namespace Relay

variable {σ : Type}

/-- Prepares a relay, with what is open afterwards. -/
def setOut (config : RelayConfig) (online : Nat) (pid : UInt32) (d : Dispatcher σ) (fs : Files) :
    Files × Opening × Except RelayError (Relay σ) :=
  match Exclusion.apply config.exclusion fs with
  | .error e => (fs, {}, .error (.exclusion e))
  | .ok fs =>
    let cpus := config.cpus.elim online (·.toNat)
    if maxCpus < cpus then (fs, {}, .error (.tooManyCpus cpus maxCpus))
    else
      match Opening.openEach fs {} (Channel.all config.shortPrefix config.longPrefix cpus) with
      | (o, .error e) => (fs, o, .error e)
      | (o, .ok ()) =>
        match WorkerPool.new threadStem (2 * cpus) with
        | .error e => (fs, o.giveUp, .error (.pool e))
        | .ok pool =>
          let reader (c : Channel) : Reader :=
            { channel := c, perDrain := config.reader.recordsPerDrain, pins := config.pinReaders }
          (fs, o, .ok {
            cpus, pid, pool, files := fs
            pidPath := config.pidFile
            readers := o.held.map reader
            dispatcher := d })

end Relay

end ProvenanceRelay
