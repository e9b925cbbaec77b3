import ProvenanceRelay.Record.Kind
import ProvenanceRelay.Stats

/-!
What a handler counts, and the figures that are published about the relay.
-/

namespace ProvenanceRelay

/-- How many records there were of each kind. Kinds without any are not listed. -/
structure Tally where
  counts : List (Kind × Nat)

namespace Tally

def empty : Tally := ⟨[]⟩

def get (t : Tally) (k : Kind) : Nat := (t.counts.lookup k).getD 0

def bumpList (k : Kind) : List (Kind × Nat) → List (Kind × Nat)
  | [] => [(k, 1)]
  | (l, n) :: rest => if l = k then (l, n + 1) :: rest else (l, n) :: bumpList k rest

def bump (t : Tally) (k : Kind) : Tally := ⟨bumpList k t.counts⟩

theorem lookup_bumpList (k l : Kind) (cs : List (Kind × Nat)) :
    ((bumpList k cs).lookup l).getD 0 = (cs.lookup l).getD 0 + if l = k then 1 else 0 := by
  induction cs with
  | nil =>
    by_cases h : l = k
    · simp [bumpList, h]
    · simp [bumpList, List.lookup_cons, beq_false_of_ne h, h]
  | cons p cs ih =>
    obtain ⟨m, n⟩ := p
    by_cases hm : m = k
    · subst hm
      by_cases hl : l = m
      · simp [bumpList, hl]
      · simp [bumpList, List.lookup_cons, beq_false_of_ne hl, hl]
    · by_cases hl : l = m
      · subst hl
        simp [bumpList, hm]
      · simp [bumpList, List.lookup_cons, hm, beq_false_of_ne hl, ih]

theorem get_bump (t : Tally) (k l : Kind) :
    (t.bump k).get l = t.get l + if l = k then 1 else 0 :=
  lookup_bumpList k l t.counts

end Tally

structure Metrics where
  observed : Nat := 0
  written : Nat := 0
  suppressed : Nat := 0
  errors : Nat := 0
  writtenByKind : Tally := .empty
  suppressedByKind : Tally := .empty

namespace Metrics

def observe (m : Metrics) : Metrics := { m with observed := m.observed + 1 }

def write (m : Metrics) (k : Kind) : Metrics :=
  { m with written := m.written + 1, writtenByKind := m.writtenByKind.bump k }

def suppress (m : Metrics) (k : Kind) : Metrics :=
  { m with suppressed := m.suppressed + 1, suppressedByKind := m.suppressedByKind.bump k }

def fail (m : Metrics) : Metrics := { m with errors := m.errors + 1 }

/-- The published counters that have counted anything, by name. -/
def published (m : Metrics) : List (String × Nat) :=
  let total (name : String) (n : Nat) := if n = 0 then [] else [(name, n)]
  let perKind (name : String) (t : Tally) :=
    t.counts.map fun (k, n) => (name ++ "\x7bkind=" ++ k.name ++ "\x7d", n)
  total "provrelay_records_observed_total" m.observed ++
    total "provrelay_records_written_total" m.written ++
    perKind "provrelay_records_by_kind_total" m.writtenByKind ++
    perKind "provrelay_records_suppressed_total" m.suppressedByKind ++
    total "provrelay_errors_total" m.errors

end Metrics

/-- The figures published about the relay, as doubles. There are none once the records of both
shapes are too many for a word. -/
def Stats.gauges? (s : Stats) (names : Nat) : Option (List (String × Float)) :=
  let figure (n : Nat) : Float := (UInt64.ofNat n).toFloat
  let perDrain : Float :=
    if s.drains = 0 then 0 else figure (s.shortRecords + s.longRecords) / figure s.drains
  if UInt64.size ≤ s.shortRecords + s.longRecords then none
  else some [("provrelay_short_records", figure s.shortRecords),
    ("provrelay_long_records", figure s.longRecords),
    ("provrelay_filtered_records", figure s.filtered),
    ("provrelay_decode_errors", figure s.decodeErrors),
    ("provrelay_io_errors", figure s.ioErrors),
    ("provrelay_drains", figure s.drains),
    ("provrelay_name_cache_entries", figure names),
    ("provrelay_records_per_drain", perDrain)]

end ProvenanceRelay
