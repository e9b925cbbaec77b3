import ProvenanceRelay.Record.Identifier

/-!
The names that paths have bound to nodes.

The first name of an identifier stays; identifiers count as different if any of their bytes
differs.
-/

namespace ProvenanceRelay

structure NameTable where
  entries : List (Identifier × String)

namespace NameTable

def empty : NameTable := ⟨[]⟩

def lookup (t : NameTable) (i : Identifier) : Option String := t.entries.lookup i

def contains (t : NameTable) (i : Identifier) : Bool := (t.lookup i).isSome

def size (t : NameTable) : Nat := t.entries.length

def isEmpty (t : NameTable) : Bool := t.entries.isEmpty

/-- Binds a name unless the identifier has one. -/
def insert (t : NameTable) (i : Identifier) (name : String) : NameTable :=
  if t.contains i then t else ⟨(i, name) :: t.entries⟩

@[simp] theorem lookup_empty (i : Identifier) : empty.lookup i = none := rfl

theorem lookup_insert (t : NameTable) (i j : Identifier) (name : String) :
    (t.insert i name).lookup j =
      if j = i then some ((t.lookup i).getD name) else t.lookup j := by
  by_cases hc : t.contains i
  · obtain ⟨n, hn⟩ := Option.isSome_iff_exists.mp hc
    rw [insert, if_pos hc]
    by_cases hj : j = i
    · subst hj
      simp [hn]
    · simp [hj]
  · have hn : t.lookup i = none := by simpa [contains] using hc
    rw [insert, if_neg hc]
    by_cases hj : j = i
    · subst hj
      simp [lookup, show List.lookup j t.entries = none from hn]
    · simp [lookup, List.lookup_cons, beq_false_of_ne hj, hj]

end NameTable

end ProvenanceRelay
