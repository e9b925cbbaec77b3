import ProvenanceRelay.Config
import ProvenanceRelay.Toml.Document

/-!
Reading a configuration.

Sections and settings that are missing have their default, and unknown ones are passed over. A
section is a table; an array stands for the settings in their order. No setting is read from a
value of another type.
-/

namespace ProvenanceRelay.Config

open Toml (Value)

/-! ### Values -/

def string? : Value → Option String
  | .string s => some s
  | _ => none

def boolean? : Value → Option Bool
  | .boolean b => some b
  | _ => none

def unsigned? (max : Nat) : Value → Option Nat
  | .integer n => if 0 ≤ n ∧ n ≤ max then some n.toNat else none
  | _ => none

def word? (v : Value) : Option UInt64 := (unsigned? (UInt64.size - 1) v).map UInt64.ofNat

def port? (v : Value) : Option UInt16 := (unsigned? (UInt16.size - 1) v).map UInt16.ofNat

def strings? : Value → Option (List String)
  | .array xs => xs.mapM string?
  | _ => none

/-! ### Sections -/

/-- The settings of a section by name. -/
def named? (keys : List String) : Value → Option (List (String × Value))
  | .table es => some es
  | .array xs => some (keys.zip xs)
  | .datetime _ => some []
  | _ => none

def setting {α : Type} (es : List (String × Value)) (key : String) (read : Value → Option α)
    (default : α) : Option α :=
  match es.lookup key with
  | none => some default
  | some v => read v

def relay? (v : Value) : Option RelaySettings := do
  let d : RelaySettings := {}
  let es ← named? ((relaySettings d).map (·.1)) v
  return {
    shortPrefix := ← setting es "short_channel_prefix" string? d.shortPrefix
    longPrefix := ← setting es "long_channel_prefix" string? d.longPrefix
    cpus := ← setting es "cpus" (fun v => some <$> word? v) d.cpus
    pidFile := ← setting es "pid_file" string? d.pidFile
    selfExclusion := ← setting es "self_exclusion" boolean? d.selfExclusion
    selfFile := ← setting es "self_file" string? d.selfFile
    pinReaders := ← setting es "pin_readers" boolean? d.pinReaders
    idleSleep := ← setting es "idle_sleep_ms" word? d.idleSleep
    pollTimeout := ← setting es "poll_timeout_ms" word? d.pollTimeout
    recordsPerDrain := ← setting es "records_per_drain" word? d.recordsPerDrain
    startupTimeout := ← setting es "startup_timeout_ms" word? d.startupTimeout
    stopTimeout := ← setting es "stop_timeout_ms" word? d.stopTimeout }

def output? (v : Value) : Option Output.OutputConfig := do
  let d : Output.OutputConfig := {}
  let es ← named? ((outputSettings d).map (·.1)) v
  return {
    file := ← setting es "file" (fun v => some <$> string? v) d.file
    queryMode := ← setting es "query_mode" boolean? d.queryMode
    suppress := ← setting es "suppress" strings? d.suppress
    resolveNames := ← setting es "resolve_names" boolean? d.resolveNames }

def logging? (v : Value) : Option LoggingSettings := do
  let d : LoggingSettings := {}
  let es ← named? ((loggingSettings d).map (·.1)) v
  return {
    level := ← setting es "level" string? d.level
    format := ← setting es "format" string? d.format }

def metrics? (v : Value) : Option MetricsSettings := do
  let d : MetricsSettings := {}
  let es ← named? ((metricsSettings d).map (·.1)) v
  return {
    enabled := ← setting es "enabled" boolean? d.enabled
    bindAddress := ← setting es "bind_address" string? d.bindAddress
    port := ← setting es "port" port? d.port
    reportInterval := ← setting es "report_interval_secs" word? d.reportInterval }

def ofTable? (es : List (String × Value)) : Option Config := do
  return {
    relay := ← setting es "relay" relay? {}
    output := ← setting es "output" output? {}
    logging := ← setting es "logging" logging? {}
    metrics := ← setting es "metrics" metrics? {} }

def ofText? (s : String) : Option Config := (Toml.parse? s).bind ofTable?

end ProvenanceRelay.Config
