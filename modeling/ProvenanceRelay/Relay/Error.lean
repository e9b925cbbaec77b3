import ProvenanceRelay.SystemError

/-!
What can go wrong when a relay is registered or stopped.
-/

namespace ProvenanceRelay

open Text.Numeral (decimal)

/-- Why not all readers have started. -/
inductive StartupFault where
  /-- No further reader was heard of in time. -/
  | timeout (started readers : Nat)
  /-- A reader has gone without a word. -/
  | exited (started readers : Nat)
  deriving DecidableEq, Repr

def StartupFault.message : StartupFault → String
  | timeout started readers =>
    decimal started ++ " of " ++ decimal readers ++ " readers started before the timeout"
  | exited started readers =>
    "a reader exited during startup after " ++ decimal started ++ " of " ++ decimal readers ++
      " started"

inductive RelayError where
  | exclusion (cause : SystemError)
  | tooManyCpus (found max : Nat)
  | channel (path : String) (cause : SystemError)
  | pool (cause : SystemError)
  | affinity (cpu : Nat) (cause : SystemError)
  | startup (fault : StartupFault)
  | pidFile (path : String) (cause : SystemError)
  | stopTimeout (readers : Nat)
  deriving DecidableEq, Repr

namespace RelayError

def startupText (reason : String) : String := "Reader startup failed: " ++ reason

def message : RelayError → String
  | exclusion cause => "Failed to mark process opaque: " ++ cause.message
  | tooManyCpus found max =>
    decimal found ++ " cpus found, at most " ++ decimal max ++ " are supported"
  | channel path cause => "Could not open " ++ path ++ ": " ++ cause.message
  | pool cause => "Failed to create worker pool: " ++ cause.message
  | affinity cpu cause =>
    "Failed setting cpu affinity for cpu " ++ decimal cpu ++ ": " ++ cause.message
  | startup fault => startupText fault.message
  | pidFile path cause => "Failed to write PID file " ++ path ++ ": " ++ cause.message
  | stopTimeout readers => decimal readers ++ " readers did not exit within the stop timeout"

def cause? : RelayError → Option SystemError
  | exclusion cause => some cause
  | channel _ cause => some cause
  | pool cause => some cause
  | affinity _ cause => some cause
  | pidFile _ cause => some cause
  | _ => none

end RelayError

end ProvenanceRelay
