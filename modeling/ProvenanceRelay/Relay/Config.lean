/-!
What a relay is told before it starts.

All times are in milliseconds.
-/

namespace ProvenanceRelay

structure ReaderSettings where
  idleSleep : UInt64 := 5
  pollTimeout : UInt64 := 1000
  recordsPerDrain : UInt64 := 1000
  deriving DecidableEq, Repr

structure RelayConfig where
  shortPrefix : String := "/sys/kernel/debug/provenance"
  longPrefix : String := "/sys/kernel/debug/long_provenance"
  /-- As many as are online unless given. -/
  cpus : Option UInt64 := none
  pidFile : Option String := some "/run/provenance-service.pid"
  /-- The file through which the relay is made opaque, if it is to be. -/
  exclusion : Option String := some "/sys/kernel/security/provenance/self"
  pinReaders : Bool := true
  reader : ReaderSettings := {}
  startupTimeout : UInt64 := 5000
  stopTimeout : UInt64 := 5000
  deriving DecidableEq, Repr

/-- The greatest number of cpus for which channels are opened. -/
def maxCpus : Nat := 256

end ProvenanceRelay
