import ProvenanceRelay.Config
import ProvenanceRelay.Failure
import ProvenanceRelay.Relay.Schedule

/-!
The daemon: a relay whose records go as lines of JSON to a file or to standard output.

Launching opens the output before the relay is registered. Finishing stops the relay and then hands
on what the output still holds.
-/

namespace ProvenanceRelay

structure Daemon where
  config : Config
  scene : Relay.Scene Output.JsonLines

structure DaemonStats where
  cpus : Nat
  relay : Stats
  cachedNames : Nat
  metrics : Metrics

namespace Daemon

def relayFailure (context : String) (e : RelayError) : Failure :=
  context :: e.message :: e.cause?.toList.map (·.message)

def registration : String := "Failed to register provenance relay"

def outputFailure (path : String) (e : SystemError) : Failure :=
  ["Failed to open record output", "Failed to open output file: " ++ path, e.message]

/-- Opens the output, which makes a file that is not there and keeps one that is. -/
def openOutput (config : Output.OutputConfig) (fs : Files) : Except Failure Files :=
  match config.file with
  | none => .ok fs
  | some path =>
    match fs.append path [] with
    | .ok fs => .ok fs
    | .error e => .error (outputFailure path e)

def sink (config : Output.OutputConfig) (fs : Files) : Output.Sink :=
  if config.file.bind fs.device? = some .full then .broken else .working

def dispatcher (config : Config) (sink : Output.Sink) : Dispatcher Output.JsonLines where
  handler := Output.JsonLines.handler config.output
  state := .new sink

def stats (d : Daemon) : DaemonStats where
  cpus := d.scene.relay.cpus
  relay := d.scene.relay.dispatcher.stats
  cachedNames := d.scene.relay.dispatcher.names.size
  metrics := d.scene.relay.dispatcher.state.metrics

def collect (d : Daemon) : Daemon × String :=
  let relay := d.scene.relay
  let out := relay.dispatcher.state.out
  let state := { relay.dispatcher.state with
    out := { out with sink := { out.sink with written := "" } } }
  ({ d with scene := { d.scene with relay := { relay with
      dispatcher := { relay.dispatcher with state } } } }, out.sink.written)

/-- Puts the text that the output has been given where it belongs: at the end of a file, or among
what is returned. A file that has been taken away does not come back. -/
def deliver (d : Daemon) (fs : Files) : Daemon × Files × String :=
  let (d, text) := d.collect
  match d.config.output.file with
  | none => (d, fs, text)
  | some path =>
    if fs.device? path = some .output then (d, fs, text)
    else if fs.exists? path then (d, (fs.append path (Text.Utf8.encode text)).toOption.getD fs, "")
    else (d, fs, "")

/-- The files after the launch, the text that has gone to standard output, and the daemon if nothing
has failed. What readers had put out before the registration failed is delivered all the same. -/
def launch (config : Config) (online : Nat) (pid : UInt32) (fs : Files) :
    Files × String × Except Failure Daemon :=
  match openOutput config.output fs with
  | .error f => (fs, "", .error f)
  | .ok fs =>
    let dispatcher := dispatcher config (sink config.output fs)
    match Relay.prepare config.relay.toRelayConfig online pid dispatcher fs with
    | (fs, .error e) => (fs, "", .error (relayFailure registration e))
    | (_, .ok relay) =>
      let scene := Relay.Scene.conclude { relay, around := .ofFiles relay }
      let (d, fs, text) := deliver { config, scene } scene.relay.files
      match scene.relay.failure with
      | some e => (fs, text, .error (relayFailure registration e))
      | none => (fs, text, .ok d)

/-- An output refuses text only for lack of room. -/
def flushFailure : Failure := ["Failed to flush record output", SystemError.noSpace.message]

def finish (d : Daemon) (fs : Files) : Daemon × Files × Except Failure Unit :=
  let (scene, stopped) :=
    Relay.Scene.stop { d.scene with relay := { d.scene.relay with files := fs } }
  let fs := scene.relay.files
  match stopped with
  | .error e => ({ d with scene }, fs, .error (relayFailure "Relay did not stop cleanly" e))
  | .ok () =>
    let relay := scene.relay
    let (state, flushed) := relay.dispatcher.state.flush
    let d := { d with scene := { scene with relay := { relay with
      dispatcher := { relay.dispatcher with state } } } }
    (d, fs, if flushed then .ok () else .error flushFailure)

end Daemon

end ProvenanceRelay
