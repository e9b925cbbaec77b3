import ProvenanceRelay.Reader.Source
import ProvenanceRelay.Relay

/-!
One order in which the threads of a relay go on.

The registering thread goes on as far as it can, then each worker in turn, until nothing moves any
more. A wait ends without success only then. Readers that start rest before they first wait for
their channels, so that the registering thread hears of all of them before records are read.
-/

namespace ProvenanceRelay.Relay

open Reader (Script)

variable {σ : Type}

/-- What the readers of a relay meet with. -/
structure Surroundings where
  /-- What each channel gives. -/
  scripts : List Script
  /-- The acts that never come to an end. -/
  blocks : Act → Bool := fun _ => false
  /-- Whether the handler panics when it is initialized. -/
  panics : Bool := false

structure Scene (σ : Type) where
  relay : Relay σ
  around : Surroundings

/-- What a channel's file gives. A directory can be opened but not read. -/
def fileScript (fs : Files) (c : Channel) : Script :=
  match fs.find c.path with
  | .ok (.file content) => .ofFile content
  | .ok .directory => [.failed .isDirectory]
  | .ok (.device _) | .error _ => []

def Surroundings.ofFiles (r : Relay σ) : Surroundings where
  scripts := r.readers.map fun x => fileScript r.files x.channel

namespace Scene

/-- The registering thread goes on as far as it can in so many steps. -/
def driveMain : Nat → Scene σ → Scene σ
  | 0, x => x
  | fuel + 1, x =>
    match x.relay.main? with
    | none => x
    | some _ => driveMain fuel { x with relay := x.relay.step .main }

/-- A worker goes on as far as it can in so many steps, or `rests` when its reader is about to wait
for the channel. -/
def driveWorker (rests : Bool) (w : Nat) : Nat → Scene σ → Scene σ
  | 0, x => x
  | fuel + 1, x =>
    match x.relay.pool.workers[w]? with
    | some .idle =>
      if ¬ x.relay.pool.queue.isEmpty then
        driveWorker rests w fuel { x with relay := x.relay.step (.take w) }
      else { x with relay := x.relay.step (.leave w) }
    | some (.ended _) => driveWorker rests w fuel { x with relay := x.relay.step (.uncount w) }
    | some (.running i) =>
      match x.relay.readers[i]?, x.around.scripts[i]? with
      | some r, some s =>
        if rests ∧ r.stage = .looping .polling then x
        else
          match Reader.news? x.around.blocks x.around.panics x.relay.running r s with
          | none => x
          | some (n, s) =>
            driveWorker rests w fuel {
              relay := x.relay.step (.reader w n)
              around := { x.around with scripts := x.around.scripts.set i s } }
      | _, _ => x
    | _ => x

def round (rests : Bool) (x : Scene σ) : Scene σ :=
  let x := x.driveMain (x.relay.readers.length * 2 + 16)
  let fuel := x.around.scripts.foldl (fun n s => n + Reader.patience s) 16
  (List.range x.relay.pool.size).foldl (fun x w => driveWorker rests w fuel x) x

/-- Goes on until nothing moves any more. The registering thread waits for the others at most
twice on its way to the next standstill, so three rounds after the readers' rest and its last steps
are enough. -/
def settle (x : Scene σ) : Scene σ :=
  let x := x.round true |>.round false |>.round false |>.round false
  x.driveMain (x.relay.readers.length * 2 + 16)

/-- Goes on until the relay is up or down, and lets what is waited for in vain expire. -/
def conclude (x : Scene σ) : Scene σ :=
  let expired (x : Scene σ) : Scene σ := { x with relay := x.relay.step .timeout }.settle
  (expired (expired x.settle))

/-- Stops the relay. One that is not up has nothing to stop. -/
def stop (x : Scene σ) : Scene σ × Except RelayError Unit :=
  if x.relay.phase = .up then
    let y := { x with relay := x.relay.step .stop }.conclude
    (y, stopResult y.relay.phase)
  else (x, .ok ())

end Scene

end ProvenanceRelay.Relay
