import ProvenanceRelay.CommandLine
import ProvenanceRelay.Daemon

/-!
The program on a real system.

One thread turns from reader to reader, and ends when the PID file of the daemon is taken away.
Signals cannot be sent from here, so a command that has to send one fails.
-/

namespace ProvenanceRelay.Program

open Output (JsonLines)

def systemError : IO.Error → SystemError
  | .noFileOrDirectory .. => .notFound
  | .inappropriateType .. => .isDirectory
  | e => .other (toString e)

def attempt {α : Type} (act : IO α) : IO (Except SystemError α) := do
  try
    return .ok (← act)
  catch e =>
    return .error (systemError e)

/-- Does something with the file at a path, if there can be such a path. -/
def attemptAt {α : Type} (path : String) (act : IO α) : IO (Except SystemError α) :=
  match Files.check path with
  | .error e => return .error e
  | .ok () => attempt act

def isThere (path : String) : IO Bool := do
  return (← attemptAt path (IO.FS.Handle.mk path .read)).toBool

def readText (path : String) : IO (Except SystemError String) := do
  match ← attemptAt path (IO.FS.readBinFile path) with
  | .error e => return .error e
  | .ok bs =>
    match Text.Utf8.decode? bs.toList with
    | some s => return .ok s
    | none => return .error .notText

/-- The first field of a process's own state is its number. -/
def ownPid : IO UInt32 := do
  match ← readText "/proc/self/stat" with
  | .ok s => return UInt32.ofNat (((s.splitOn " ").head?.bind (·.toNat?)).getD 0)
  | .error _ => return 0

def onlineCpus : IO Nat := do
  match ← readText "/proc/cpuinfo" with
  | .ok s => return max 1 ((s.splitOn "\n").filter (·.startsWith "processor")).length
  | .error _ => return 1

/-- A reader with the open file of its channel. -/
structure Live where
  reader : Reader
  file : IO.FS.Handle

def orThrow {α : Type} (path : String) (err : SystemError → RelayError) (act : IO α) :
    ExceptT RelayError IO α := do
  match ← attemptAt path act with
  | .ok a => return a
  | .error e => throw (err e)

def register (config : RelayConfig) : ExceptT RelayError IO (List Live) := do
  if let some path := config.exclusion then
    orThrow path .exclusion do
      let file ← IO.FS.Handle.mk path .readWrite
      file.write (ByteArray.mk Exclusion.request.toArray)
  let online ← onlineCpus
  let cpus := config.cpus.elim online (·.toNat)
  if maxCpus < cpus then throw (.tooManyCpus cpus maxCpus)
  let live ← (Channel.all config.shortPrefix config.longPrefix cpus).mapM fun c => do
    let file ← orThrow c.path (.channel c.path) (IO.FS.Handle.mk c.path .read)
    return { reader := { channel := c, perDrain := config.reader.recordsPerDrain }, file }
  if cpus = 0 then throw (.pool .noThreads)
  if let some path := config.pidFile then
    let pid ← ownPid
    orThrow path (.pidFile path) (IO.FS.writeFile path (PidFile.text pid))
  return live

/-- What a reader learns next. -/
def news? (running : Bool) (l : Live) : IO (Option Reader.News) := do
  match l.reader.todo, l.reader.stage with
  | [], .looping (.reading buf) =>
    let room := min (l.reader.drain.room buf) 65536
    match ← attempt (l.file.read (USize.ofNat room)) with
    | .ok bs => return some (.loop (.read (.data bs.toList)))
    | .error e => return some (.loop (.read (.failed e)))
  | _, _ =>
    return (l.reader.news? (fun _ => false) false running [.wouldBlock]).map (·.1)

/-- Lets a reader go on until it is about to look at the running flag again, or is gone. -/
partial def turn (running : Bool) (d : Dispatcher JsonLines) (l : Live) (first : Bool := true) :
    IO (Dispatcher JsonLines × Live) := do
  let atFlag : Bool := match l.reader.todo, l.reader.stage with
    | [], .looping .top | [], .looping (.torn _) => true
    | _, _ => false
  if running && atFlag && !first then return (d, l)
  match ← news? running l with
  | none => return (d, l)
  | some n =>
    let x : Reader.Solo JsonLines := { reader := l.reader, dispatcher := d }
    let x := x.step n
    turn running x.dispatcher { l with reader := x.reader } (first && !atFlag)

/-- Hands on the text that the handler has put out. Text that is refused is lost. -/
def put (out : IO.FS.Stream) (d : Dispatcher JsonLines) : IO (Dispatcher JsonLines) := do
  let writer := d.state.out
  let _ ← attempt do
    out.putStr writer.sink.written
    out.flush
  return { d with state := { d.state with out :=
    { writer with sink := { writer.sink with written := "" } } } }

def turnAll (out : IO.FS.Stream) (running : Bool) (d : Dispatcher JsonLines) (ls : List Live) :
    IO (Dispatcher JsonLines × List Live) := do
  let mut d := d
  let mut after := #[]
  for l in ls do
    let (e, l) ← turn running d l
    d ← put out e
    after := after.push l
  return (d, after.toList)

partial def relay (config : RelayConfig) (out : IO.FS.Stream) (d : Dispatcher JsonLines)
    (ls : List Live) : IO Unit := do
  let running ← config.pidFile.elim (pure true) isThere
  let (d, ls) ← turnAll out running d ls
  if running then
    IO.sleep (UInt32.ofNat (min config.reader.idleSleep.toNat 1000))
    relay config out d ls
  else
    let (state, _) := d.state.flush
    let _ ← put out { d with state }

def serve (config : Config) : IO (Except Failure Unit) := do
  let out ← match config.output.file with
    | none => Except.ok <$> IO.getStdout
    | some path =>
      match ← attemptAt path (IO.FS.Handle.mk path .append) with
      | .ok file => pure (.ok (IO.FS.Stream.ofHandle file))
      | .error e => pure (.error (Daemon.outputFailure path e))
  match out with
  | .error f => return .error f
  | .ok out =>
    let settings := config.relay.toRelayConfig
    match ← (register settings).run with
    | .error e => return .error (Daemon.relayFailure Daemon.registration e)
    | .ok ls =>
      relay settings out (Daemon.dispatcher config .working) ls
      return .ok ()

def host : Host IO where
  readText := readText
  isThere := isThere
  writeText path text := attemptAt path (IO.FS.writeFile path text)
  remove path := do
    let _ ← attemptAt path (IO.FS.removeFile path)
  signal _ _ := return false
  isAlive pid := do
    if pid = 0 then return true
    isThere ("/proc/" ++ CommandLine.pidText pid ++ "/stat")
  serve := serve
  pause := IO.sleep 100
  print := IO.println

end ProvenanceRelay.Program

open ProvenanceRelay in
def main (args : List String) : IO UInt32 := do
  let outcome ← CommandLine.runOn Program.host args
  match outcome with
  | .success => pure ()
  | .failure f => IO.eprintln f.report
  | .misuse => IO.eprintln CommandLine.usage
  return UInt32.ofNat outcome.code
