import ProvenanceRelay.Toml.Reader

/-!
What the lines of a TOML text mean together.

A line that names a table opens it for the entries below. A table has at most one line of its own,
and no key is given two values.
-/

namespace ProvenanceRelay.Toml

/-- The tables so far, and the path of the one that is open. -/
structure Document where
  entries : Entries := []
  current : List String := []

namespace Document

/-- Opens the table `k` under a path, which may have come about only as part of other paths. -/
def openTable (k : String) (origin : Origin) (es : Entries) : Option (Origin × Entries) :=
  match es.lookup k with
  | none => some (origin, es ++ [(k, .table .explicit [])])
  | some (.table .implicit sub) => some (origin, replace k (.table .explicit sub) es)
  | _ => none

/-- Adds a table to the array `k` under a path. -/
def openElement (k : String) (origin : Origin) (es : Entries) : Option (Origin × Entries) :=
  match es.lookup k with
  | none => some (origin, es ++ [(k, .tables [(.explicit, [])])])
  | some (.tables ts) => some (origin, replace k (.tables (ts ++ [(.explicit, [])])) es)
  | _ => none

def openAt (make : String → Origin → Entries → Option (Origin × Entries)) (d : Document)
    (path : List String) : Option Document :=
  match path.getLast? with
  | none => none
  | some k =>
    (descend false (make k) path.dropLast .explicit d.entries).map fun r => ⟨r.2, path⟩

def add (d : Document) : Line → Option Document
  | .table path => d.openAt openTable path
  | .element path => d.openAt openElement path
  | .entry path v =>
    (descend false (addEntry path v) d.current .explicit d.entries).map fun r =>
      { d with entries := r.2 }

end Document

def parse? (s : String) : Option (List (String × Value)) := do
  let lines ← lines? s.toList
  let d ← lines.foldlM Document.add {}
  return entriesToValue d.entries

end ProvenanceRelay.Toml
