import ProvenanceRelay.Affinity
import ProvenanceRelay.Reader

/-!
Channels whose read results are fixed in advance.

A script lists what a channel gives. A result that has more bytes than a read has room for is given
in parts. `play` runs one reader over a script: the running flag is cleared when nothing is left.
-/

namespace ProvenanceRelay.Reader

abbrev Script := List ReadResult

namespace Script

/-- The script of a file: reads fill the room they have as far as the file goes. -/
def ofFile (content : Bytes) : Script := if content.isEmpty then [] else [.data content]

def read (room : Nat) : Script → ReadResult × Script
  | [] => (.data [], [])
  | .data bs :: s =>
    let left := bs.drop room
    (.data (bs.take room), if left.isEmpty then s else .data left :: s)
  | r :: s => (r, s)

def weight : Script → Nat
  | [] => 0
  | .data bs :: s => bs.length + 1 + weight s
  | _ :: s => 1 + weight s

end Script

/-- What a reader learns next, and the script after it; nothing while it waits for bytes, in a call
that blocks, or when it is gone. -/
def news? (blocks : Act → Bool) (panics running : Bool) (r : Reader) (s : Script) :
    Option (News × Script) :=
  match r.todo, r.stage with
  | a :: _, _ => if blocks a then none else some (.go, s)
  | [], .pinning =>
    if r.pins then
      match Affinity.check r.channel.cpu with
      | .ok () => some (.pinned none, s)
      | .error e => some (.pinned (some e), s)
    else some (.go, s)
  | [], .initializing =>
    if blocks (.call .init) then none else some (if panics then .panic else .go, s)
  | [], .looping .top | [], .looping (.torn _) =>
    if running ∧ s.isEmpty then none else some (.loop (.flag running), s)
  | [], .looping .polling => some (.loop (.polled none), s)
  | [], .looping (.reading buf) =>
    let (result, s) := s.read (r.drain.room buf)
    some (.loop (.read result), s)
  | [], .looping (.batch _) => some (.loop .next, s)
  | [], .gone => none
  | [], _ => some (.go, s)

/-- More steps than a reader can take over a script. -/
def patience (s : Script) : Nat := 16 * (s.weight + 4)

/-- A reader on its own, with the dispatcher that it calls and what it has told. -/
structure Solo (σ : Type) where
  reader : Reader
  dispatcher : Dispatcher σ
  acks : List Ack := []

namespace Solo

variable {σ : Type}

def apply (x : Solo σ) (r : Reader) : Option Effect → Solo σ
  | some (.act a) => { x with reader := r, dispatcher := x.dispatcher.perform a }
  | some (.tell a) => { x with reader := r, acks := x.acks ++ [a] }
  | some .close | none => { x with reader := r }

def step (x : Solo σ) (n : News) : Solo σ :=
  let (r, effect) := x.reader.step x.dispatcher.handler.policy n
  x.apply r effect

def playFor (panics running : Bool) : Nat → Solo σ → Script → Solo σ
  | 0, x, _ => x
  | fuel + 1, x, s =>
    match news? (fun _ => false) panics (running && !s.isEmpty) x.reader s with
    | none => x
    | some (n, s) => playFor panics running fuel (x.step n) s

/-- The reader after its whole script, stopped when nothing is left. -/
def play (panics running : Bool) (x : Solo σ) (s : Script) : Solo σ :=
  playFor panics running (patience s) x s

end Solo

end ProvenanceRelay.Reader
