import ProvenanceRelay.CommandLine.Arguments
import ProvenanceRelay.Config.Check
import ProvenanceRelay.Config.Store
import ProvenanceRelay.Failure
import ProvenanceRelay.PidFile

/-!
The commands of the program.

A command talks to the system it runs on through a `Host`, so that the same commands run for real
and on a system that is a value.
-/

namespace ProvenanceRelay

inductive Signal where
  | term
  | kill
  deriving DecidableEq, Repr

def Signal.name : Signal → String
  | .term => "SIGTERM"
  | .kill => "SIGKILL"

/-- What commands ask of the system. -/
structure Host (m : Type → Type) where
  readText : String → m (Except SystemError String)
  isThere : String → m Bool
  writeText : String → String → m (Except SystemError Unit)
  remove : String → m Unit
  /-- Sends a signal, and tells whether there was a process to take it. -/
  signal : Signal → UInt32 → m Bool
  isAlive : UInt32 → m Bool
  /-- Runs the daemon. -/
  serve : Config → m (Except Failure Unit)
  /-- Waits for a tenth of a second. -/
  pause : m Unit
  print : String → m Unit

namespace CommandLine

variable {m : Type → Type} [Monad m]

/-- The greatest number of a process. -/
def maxProcess : Nat := UInt32.size / 2 - 1

def configFailure (e : ConfigError) : Failure := [e.message]

/-- The configuration in a file, or the default one if there is no such file. -/
def loadConfig (host : Host m) (path : String) : ExceptT Failure m Config := do
  if ← host.isThere path then
    match Config.ofFile path (← host.readText path) with
    | .ok c => return c
    | .error e => throw ("Failed to load configuration" :: configFailure e)
  else return {}

def overrides (args : StartArgs) (c : Config) : Config where
  relay := { c.relay with cpus := args.cpus.orElse fun _ => c.relay.cpus }
  output := { c.output with
    file := args.output.orElse fun _ => c.output.file
    queryMode := args.query || c.output.queryMode }
  logging := { c.logging with level := if args.debug then "debug" else c.logging.level }
  metrics := c.metrics

def check (c : Config) : Except Failure Unit :=
  match c.fault? with
  | none => .ok ()
  | some f => .error [f.message]

def start (host : Host m) (args : StartArgs) : ExceptT Failure m Unit := do
  let config := overrides args (← loadConfig host args.config)
  ExceptT.mk (pure (check config))
  ExceptT.mk (host.serve config)

def pidText (pid : UInt32) : String := Text.Numeral.decimal pid.toNat

/-- Signals the process, which has to have a number that processes can have. -/
def signalProcess (host : Host m) (s : Signal) (pid : UInt32) : ExceptT Failure m Unit := do
  if maxProcess < pid.toNat then throw ["Invalid pid " ++ pidText pid]
  if ¬ (← host.signal s pid) then throw ["Failed to signal process " ++ pidText pid]

/-- Looks for the file so many times, and tells whether it has gone. -/
def awaitGone (host : Host m) (path : String) : Nat → m Bool
  | 0 => pure false
  | n + 1 => do
    if ← host.isThere path then
      host.pause
      awaitGone host path n
    else return true

/-- How often the PID file of a daemon that is to stop is looked for. -/
def patience : Nat := 100

def stop (host : Host m) (config : String) (force : Bool) : ExceptT Failure m Unit := do
  let path := (← loadConfig host config).relay.pidFile
  match PidFile.ofText (← host.readText path) with
  | .error e => throw ["Failed to read PID file: " ++ path, e.message]
  | .ok none => throw ["Daemon not running (no PID file at " ++ path ++ ")"]
  | .ok (some pid) =>
    let s := if force then Signal.kill else .term
    signalProcess host s pid
    host.print ("Sent " ++ s.name ++ " to " ++ pidText pid)
    if force then
      -- a killed daemon does not take its file away
      host.remove path
    else
      let gone : Bool ← (awaitGone host path patience : m Bool)
      if gone then host.print "✓ Daemon stopped"
      else throw ["Daemon " ++ pidText pid ++ " did not stop within 10s"]

def isRunning (host : Host m) (pid : UInt32) : m Bool :=
  if maxProcess < pid.toNat then pure false else host.isAlive pid

def status (host : Host m) (config : String) : ExceptT Failure m Unit := do
  let path := (← loadConfig host config).relay.pidFile
  host.print "Provrelay Daemon Status"
  host.print "======================="
  host.print ("PID file: " ++ path)
  match PidFile.ofText (← host.readText path) with
  | .error e => throw [e.message]
  | .ok none => host.print "Status: stopped"
  | .ok (some pid) =>
    let running : Bool ← (isRunning host pid : m Bool)
    if running then host.print ("Status: running (pid " ++ pidText pid ++ ")")
    else host.print ("Status: stale PID file (pid " ++ pidText pid ++ " not running)")

def validate (host : Host m) (path : String) : ExceptT Failure m Unit := do
  match Config.ofFile path (← host.readText path) with
  | .error e => throw (configFailure e)
  | .ok c =>
    ExceptT.mk (pure (check c))
    host.print "✓ Configuration is valid"

def generate (host : Host m) (path : String) (force : Bool) : ExceptT Failure m Unit := do
  if !force && (← host.isThere path) then
    throw ["Configuration file already exists: " ++ path]
  match Config.print {} with
  | .error e => throw (configFailure e)
  | .ok s =>
    match ← host.writeText path s with
    | .error e => throw [(ConfigError.unwritable path e).message, e.message]
    | .ok () => host.print ("Generated configuration file: " ++ path)

def usage : String := "Usage: provrelayd <start|stop|status|validate|config> [OPTIONS]"

def versionText : String := "provrelayd 0.1.0"

def perform (host : Host m) : Command → ExceptT Failure m Unit
  | .start args => start host args
  | .stop config force => stop host config force
  | .status config => status host config
  | .validate config => validate host config
  | .generate output force => generate host output force
  | .help => host.print usage
  | .version => host.print versionText

/-- How a run of the program ends: with its exit code and what it says about a failure. -/
inductive Outcome where
  | success
  | failure (f : Failure)
  | misuse
  deriving DecidableEq, Repr

def Outcome.code : Outcome → Nat
  | success => 0
  | failure _ => 1
  | misuse => 2

def runOn (host : Host m) (args : List String) : m Outcome := do
  match command args with
  | .error .usage => return .misuse
  | .error .help =>
    host.print usage
    return .success
  | .error .version =>
    host.print versionText
    return .success
  | .ok c =>
    match ← (perform host c).run with
    | .ok () => return .success
    | .error f => return .failure f

end CommandLine

end ProvenanceRelay
