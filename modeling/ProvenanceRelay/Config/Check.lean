import ProvenanceRelay.Config
import ProvenanceRelay.Net.AddressReader

/-!
What is wrong with a configuration.

`faults` lists all faults in the order in which they are looked for; the first one is reported.
-/

namespace ProvenanceRelay

inductive ConfigFault where
  | cpus (n : UInt64)
  | recordsPerDrain
  | pollTimeout
  /-- Stopping would not wait long enough for a reader that has just begun to poll. -/
  | stopTimeout (timeout latency : UInt64)
  | kind (name : String)
  | level (name : String)
  | format (name : String)
  | port (n : UInt16)
  | bindAddress (text : String)
  | reportInterval
  deriving DecidableEq, Repr

open Text.Numeral (decimal) in
def ConfigFault.message : ConfigFault → String
  | cpus n => "cpus must be between 1 and " ++ decimal maxCpus ++ ", got " ++ decimal n.toNat
  | recordsPerDrain => "records_per_drain must be > 0"
  | pollTimeout => "poll_timeout_ms must be > 0"
  | stopTimeout timeout latency =>
    "stop_timeout_ms (" ++ decimal timeout.toNat ++
      ") must exceed poll_timeout_ms + idle_sleep_ms (" ++ decimal latency.toNat ++ ")"
  | kind name => "Unknown record kind in suppress list: " ++ name
  | level name => "Invalid log level: " ++ name
  | format name => "Invalid log format: " ++ name
  | port n => "Invalid metrics port: " ++ decimal n.toNat
  | bindAddress text => "Invalid metrics bind address: " ++ text
  | reportInterval => "report_interval_secs must be > 0"

/-- The sum of two words, or the greatest word if that is less. -/
def satAdd (a b : UInt64) : UInt64 := UInt64.ofNat (min (a.toNat + b.toNat) (UInt64.size - 1))

namespace Config

def levels : List String := ["error", "warn", "info", "debug", "trace"]

def formats : List String := ["json", "pretty", "compact"]

def when (p : Prop) [Decidable p] (f : ConfigFault) : List ConfigFault := if p then [f] else []

/-- The longest time before a reader sees that it has to stop. -/
def latency (s : RelaySettings) : UInt64 := satAdd s.pollTimeout s.idleSleep

def relayFaults (s : RelaySettings) : List ConfigFault :=
  (s.cpus.elim [] fun n => when (n = 0 ∨ maxCpus < n.toNat) (.cpus n)) ++
    when (s.recordsPerDrain = 0) .recordsPerDrain ++
    when (s.pollTimeout = 0) .pollTimeout ++
    when (s.stopTimeout ≤ latency s) (.stopTimeout s.stopTimeout (latency s))

def outputFaults (s : Output.OutputConfig) : List ConfigFault :=
  s.suppress.flatMap fun name => when (Kind.ofName? name = none) (.kind name)

def loggingFaults (s : LoggingSettings) : List ConfigFault :=
  when (s.level ∉ levels) (.level s.level) ++ when (s.format ∉ formats) (.format s.format)

def metricsFaults (s : MetricsSettings) : List ConfigFault :=
  when (s.enabled = true ∧ s.port = 0) (.port s.port) ++
    when (s.enabled = true ∧ Net.IpAddress.parse? s.bindAddress = none)
      (.bindAddress s.bindAddress) ++
    when (s.reportInterval = 0) .reportInterval

def faults (c : Config) : List ConfigFault :=
  relayFaults c.relay ++ outputFaults c.output ++ loggingFaults c.logging ++
    metricsFaults c.metrics

def fault? (c : Config) : Option ConfigFault := c.faults.head?

end Config

end ProvenanceRelay
