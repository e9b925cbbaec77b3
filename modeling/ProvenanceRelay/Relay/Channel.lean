import ProvenanceRelay.Files
import ProvenanceRelay.Record.Basic

/-!
The channels of a relay: two files for each cpu.
-/

namespace ProvenanceRelay

structure Channel where
  path : String
  cpu : Nat
  shape : Shape
  deriving DecidableEq, Repr

namespace Channel

/-- The path of a cpu's channel: what all of a shape start with, and the number of the cpu. -/
def pathFor (stem : String) (cpu : Nat) : String := stem ++ Text.Numeral.decimal cpu

/-- The channels of the first cpus in the order in which they are opened. -/
def all (shortStem longStem : String) (cpus : Nat) : List Channel :=
  (List.range cpus).flatMap fun cpu =>
    [⟨pathFor shortStem cpu, cpu, .short⟩, ⟨pathFor longStem cpu, cpu, .long⟩]

/-- Whether the file of a path can be opened for reading, which holds of a directory too. -/
def openable (fs : Files) (path : String) : Except SystemError Unit := do
  let _ ← fs.find path

theorem length_all (s l : String) (cpus : Nat) : (all s l cpus).length = 2 * cpus := by
  induction cpus with
  | zero => rfl
  | succ n ih =>
    simp only [all] at ih
    simp only [all, List.range_succ, List.flatMap_append, List.length_append, ih,
      List.flatMap_cons, List.flatMap_nil, List.length_cons, List.length_nil]
    omega

end Channel

end ProvenanceRelay
