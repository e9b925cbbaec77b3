import ProvenanceRelay.SystemError

/-!
The cpus that a reader can be pinned to.
-/

namespace ProvenanceRelay.Affinity

/-- How many cpus a set of cpus has room for. -/
def capacity : Nat := 1024

def check (cpu : Nat) : Except SystemError Unit :=
  if cpu < capacity then .ok () else .error (.cpuOutOfRange cpu capacity)

end ProvenanceRelay.Affinity
