/-!
The counters of the relay.
-/

namespace ProvenanceRelay

structure Stats where
  shortRecords : Nat := 0
  longRecords : Nat := 0
  filtered : Nat := 0
  decodeErrors : Nat := 0
  ioErrors : Nat := 0
  drains : Nat := 0
  deriving DecidableEq, Repr

inductive Counter where
  | shortRecords
  | longRecords
  | filtered
  | decodeErrors
  | ioErrors
  | drains
  deriving DecidableEq, Repr

namespace Stats

def count (s : Stats) : Counter → Stats
  | .shortRecords => { s with shortRecords := s.shortRecords + 1 }
  | .longRecords => { s with longRecords := s.longRecords + 1 }
  | .filtered => { s with filtered := s.filtered + 1 }
  | .decodeErrors => { s with decodeErrors := s.decodeErrors + 1 }
  | .ioErrors => { s with ioErrors := s.ioErrors + 1 }
  | .drains => { s with drains := s.drains + 1 }

def get (s : Stats) : Counter → Nat
  | .shortRecords => s.shortRecords
  | .longRecords => s.longRecords
  | .filtered => s.filtered
  | .decodeErrors => s.decodeErrors
  | .ioErrors => s.ioErrors
  | .drains => s.drains

theorem get_count (s : Stats) (c d : Counter) :
    (s.count c).get d = s.get d + if d = c then 1 else 0 := by
  cases c <;> cases d <;> simp [count, get]

end Stats

end ProvenanceRelay
