import ProvenanceRelay.Output.JsonLines
import ProvenanceRelay.Relay.Config
import ProvenanceRelay.Toml.Printer

/-!
The configuration of the daemon.
-/

namespace ProvenanceRelay

structure RelaySettings where
  shortPrefix : String := "/sys/kernel/debug/provenance"
  longPrefix : String := "/sys/kernel/debug/long_provenance"
  cpus : Option UInt64 := none
  pidFile : String := "/run/provenance-service.pid"
  selfExclusion : Bool := true
  selfFile : String := "/sys/kernel/security/provenance/self"
  pinReaders : Bool := true
  idleSleep : UInt64 := 5
  pollTimeout : UInt64 := 1000
  recordsPerDrain : UInt64 := 1000
  startupTimeout : UInt64 := 5000
  stopTimeout : UInt64 := 5000
  deriving DecidableEq, Repr

structure LoggingSettings where
  level : String := "info"
  format : String := "pretty"
  deriving DecidableEq, Repr

structure MetricsSettings where
  enabled : Bool := false
  bindAddress : String := "127.0.0.1"
  port : UInt16 := 9091
  reportInterval : UInt64 := 10
  deriving DecidableEq, Repr

structure Config where
  relay : RelaySettings := {}
  output : Output.OutputConfig := {}
  logging : LoggingSettings := {}
  metrics : MetricsSettings := {}
  deriving DecidableEq, Repr

def RelaySettings.toRelayConfig (s : RelaySettings) : RelayConfig where
  shortPrefix := s.shortPrefix
  longPrefix := s.longPrefix
  cpus := s.cpus
  pidFile := some s.pidFile
  exclusion := if s.selfExclusion then some s.selfFile else none
  pinReaders := s.pinReaders
  reader := {
    idleSleep := s.idleSleep
    pollTimeout := s.pollTimeout
    recordsPerDrain := s.recordsPerDrain }
  startupTimeout := s.startupTimeout
  stopTimeout := s.stopTimeout

namespace Config

open Toml (Setting)

/-! ### As named settings -/

/-- The settings of a section by name, with none for those that are not set. -/
abbrev Settings := List (String × Option Setting)

def word (n : UInt64) : Setting := .integer n.toNat

def relaySettings (s : RelaySettings) : Settings :=
  [("short_channel_prefix", some (.string s.shortPrefix)),
    ("long_channel_prefix", some (.string s.longPrefix)),
    ("cpus", s.cpus.map word),
    ("pid_file", some (.string s.pidFile)),
    ("self_exclusion", some (.boolean s.selfExclusion)),
    ("self_file", some (.string s.selfFile)),
    ("pin_readers", some (.boolean s.pinReaders)),
    ("idle_sleep_ms", some (word s.idleSleep)),
    ("poll_timeout_ms", some (word s.pollTimeout)),
    ("records_per_drain", some (word s.recordsPerDrain)),
    ("startup_timeout_ms", some (word s.startupTimeout)),
    ("stop_timeout_ms", some (word s.stopTimeout))]

def outputSettings (s : Output.OutputConfig) : Settings :=
  [("file", s.file.map .string),
    ("query_mode", some (.boolean s.queryMode)),
    ("suppress", some (.strings s.suppress)),
    ("resolve_names", some (.boolean s.resolveNames))]

def loggingSettings (s : LoggingSettings) : Settings :=
  [("level", some (.string s.level)), ("format", some (.string s.format))]

def metricsSettings (s : MetricsSettings) : Settings :=
  [("enabled", some (.boolean s.enabled)),
    ("bind_address", some (.string s.bindAddress)),
    ("port", some (.integer s.port.toNat)),
    ("report_interval_secs", some (word s.reportInterval))]

def settings (c : Config) : List (String × Settings) :=
  [("relay", relaySettings c.relay), ("output", outputSettings c.output),
    ("logging", loggingSettings c.logging), ("metrics", metricsSettings c.metrics)]

def text (c : Config) : Except Toml.PrintFault String :=
  Toml.print (c.settings.map fun (name, s) =>
    ⟨name, s.filterMap fun (k, v) => v.map fun v => (k, v)⟩)

end Config

end ProvenanceRelay
