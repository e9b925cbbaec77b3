import ProvenanceRelay.CommandLine
import ProvenanceRelay.Daemon

/-!
A system that is a value: files, processes and at most one daemon.

A daemon that is launched stays until it is signalled. Told to terminate it finishes; killed it is
gone at once.
-/

namespace ProvenanceRelay.CommandLine

inductive Ending where
  | finished (result : Except Failure Unit)
  | killed

structure World where
  files : Files
  online : Nat := 1
  /-- The number that the next daemon gets. -/
  nextPid : UInt32
  /-- The other processes. -/
  others : UInt32 → Bool
  daemon : Option (UInt32 × Daemon) := none
  ending : Option Ending := none
  /-- What commands have put to standard output. -/
  printed : String := ""
  /-- What commands have put to standard error. -/
  noted : String := ""
  /-- What a daemon that is up has put to its standard output. -/
  streamed : String := ""
  /-- The signals sent, in order. -/
  signals : List (Signal × UInt32) := []

namespace World

def isAlive (w : World) (pid : UInt32) : Bool :=
  w.others pid || w.daemon.any fun d => d.1 = pid

def serve (w : World) (config : Config) : Except Failure Unit × World :=
  match Daemon.launch config w.online w.nextPid w.files with
  | (files, text, .error f) => (.error f, { w with files, printed := w.printed ++ text })
  | (files, text, .ok d) =>
    (.ok (), { w with files, daemon := some (w.nextPid, d), streamed := w.streamed ++ text })

def finish (w : World) (d : Daemon) : World :=
  let (d, files, result) := d.finish w.files
  let (_, files, text) := d.deliver files
  { w with
    files, daemon := none, ending := some (.finished result), streamed := w.streamed ++ text }

def signal (w : World) (s : Signal) (pid : UInt32) : World :=
  let w := { w with signals := w.signals ++ [(s, pid)] }
  match w.daemon with
  | none => w
  | some (own, d) =>
    if own ≠ pid then w
    else
      match s with
      | .term => w.finish d
      | .kill => { w with daemon := none, ending := some .killed }

end World

/-- Commands on a system that is a value. -/
def world : Host (StateM World) where
  readText path w := (w.files.readText path, w)
  isThere path w := (w.files.exists? path, w)
  writeText path text w :=
    match w.files.write path (Text.Utf8.encode text) with
    | .ok files =>
      match files.device? path with
      | some .output => (.ok (), { w with files, printed := w.printed ++ text })
      | some .errors => (.ok (), { w with files, noted := w.noted ++ text })
      | _ => (.ok (), { w with files })
    | .error e => (.error e, w)
  remove path w := ((), { w with files := (w.files.remove path).toOption.getD w.files })
  signal s pid w := (w.isAlive pid, w.signal s pid)
  isAlive pid w := (w.isAlive pid, w)
  serve config w := w.serve config
  pause w := ((), w)
  print line w := ((), { w with printed := w.printed ++ line ++ "\n" })

def run (args : List String) (w : World) : Outcome × World := runOn world args w

end ProvenanceRelay.CommandLine
