import ProvenanceRelay.NameTable

/-!
Threads that share a table of names.

Each thread makes its requests in its own order. The table answers one request at a time, whosever
it is.
-/

namespace ProvenanceRelay.NameTable

inductive Request where
  | insert (i : Identifier) (name : String)
  | lookup (i : Identifier)
  | contains (i : Identifier)
  | size
  deriving DecidableEq

inductive Answer where
  /-- Whether it was this request that bound the name. -/
  | inserted (bound : Bool)
  | found (name : Option String)
  | contained (bound : Bool)
  | counted (n : Nat)
  deriving DecidableEq

def answer (t : NameTable) : Request → NameTable × Answer
  | .insert i name => (t.insert i name, .inserted (!t.contains i))
  | .lookup i => (t, .found (t.lookup i))
  | .contains i => (t, .contained (t.contains i))
  | .size => (t, .counted t.size)

structure Served where
  thread : Nat
  request : Request
  answer : Answer

/-- Threads at work on one table. -/
structure Threads where
  table : NameTable := .empty
  /-- The requests that each thread is yet to make. -/
  todo : Nat → List Request
  served : List Served := []

namespace Threads

/-- A thread has its next request answered. One that has none left changes nothing. -/
def step (s : Threads) (t : Nat) : Threads :=
  match s.todo t with
  | [] => s
  | q :: qs =>
    { table := (s.table.answer q).1
      todo := fun u => if u = t then qs else s.todo u
      served := s.served ++ [⟨t, q, (s.table.answer q).2⟩] }

def run (s : Threads) (turns : List Nat) : Threads := turns.foldl step s

@[simp] theorem run_nil (s : Threads) : s.run [] = s := rfl

@[simp] theorem run_cons (s : Threads) (t : Nat) (turns : List Nat) :
    s.run (t :: turns) = (s.step t).run turns := rfl

end Threads

end ProvenanceRelay.NameTable
