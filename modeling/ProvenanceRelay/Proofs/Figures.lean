import Mathlib
import ProvenanceRelay.Metrics
import ProvenanceRelay.Proofs.Kinds

/-!
The figures under which counters are published, read back by name.

A figure of a kind has the kind inside its name. No two names coincide, which already their first
nineteen characters tell for different families and the kind tells inside a family. So looking a
name up gives the count that was published under it.
-/

namespace ProvenanceRelay

namespace Metrics

/-- The figure that is published under a name. What is not listed is zero. -/
def figure (m : Metrics) (name : String) : ℕ := (m.published.lookup name).getD 0

/-- The name of a figure that is kept for each kind. -/
def kindName (family : String) (k : Kind) : String := family ++ "\x7bkind=" ++ k.name ++ "\x7d"

def writtenName : Kind → String := kindName "provrelay_records_by_kind_total"

def suppressedName : Kind → String := kindName "provrelay_records_suppressed_total"

/-! ### Names -/

lemma kindName_injective (family : String) : Function.Injective (kindName family) := by
  intro k l h
  apply Kind.name_injective
  have h := congrArg String.toList h
  simp only [kindName, String.toList_append, List.append_assoc, List.append_cancel_left_eq,
    List.append_cancel_right_eq] at h
  exact String.toList_injective h

/-- The first characters of a name, which tell its family. -/
def stem (name : String) : List Char := name.toList.take 19

lemma stem_kindName {family : String} (h : 19 ≤ family.toList.length) (k : Kind) :
    stem (kindName family k) = stem family := by
  simp only [stem, kindName, String.toList_append, List.append_assoc]
  exact List.take_append_of_le_length h

lemma stem_writtenName (k : Kind) : stem (writtenName k) = "provrelay_records_b".toList :=
  (stem_kindName (by decide) k).trans (by decide)

lemma stem_suppressedName (k : Kind) : stem (suppressedName k) = "provrelay_records_s".toList :=
  (stem_kindName (by decide) k).trans (by decide)

lemma ne_of_stem {x y : String} (h : stem x ≠ stem y) : x ≠ y := fun hxy => h (hxy ▸ rfl)

/-! ### Looking figures up -/

/-- A total, which is listed once it is not zero. -/
def total (name : String) (n : ℕ) : List (String × ℕ) := if n = 0 then [] else [(name, n)]

def perKind (family : String) (t : Tally) : List (String × ℕ) :=
  t.counts.map fun c => (kindName family c.1, c.2)

lemma published_eq (m : Metrics) :
    m.published =
      total "provrelay_records_observed_total" m.observed ++
        total "provrelay_records_written_total" m.written ++
        perKind "provrelay_records_by_kind_total" m.writtenByKind ++
        perKind "provrelay_records_suppressed_total" m.suppressedByKind ++
        total "provrelay_errors_total" m.errors := rfl

lemma lookup_total {x name : String} (h : stem x ≠ stem name) (n : ℕ) :
    (total name n).lookup x = none := by
  have hne := ne_of_stem h
  unfold total
  split <;> simp [hne]

lemma lookup_perKind (family : String) (t : Tally) (k : Kind) :
    (perKind family t).lookup (kindName family k) = t.counts.lookup k := by
  unfold perKind
  induction t.counts with
  | nil => rfl
  | cons c cs ih =>
    obtain ⟨l, n⟩ := c
    by_cases hl : k = l
    · subst hl
      simp
    · have hname : kindName family k ≠ kindName family l :=
        fun h => hl (kindName_injective family h)
      rw [List.map_cons, List.lookup_cons, List.lookup_cons, beq_false_of_ne hname,
        beq_false_of_ne hl, ih]

lemma lookup_perKind_of_ne {x family : String} (h : ∀ l, stem x ≠ stem (kindName family l))
    (t : Tally) : (perKind family t).lookup x = none := by
  rw [List.lookup_eq_none_iff]
  intro c hc
  obtain ⟨l, -, rfl⟩ := List.mem_map.mp hc
  simpa using ne_of_stem (h l.1)

lemma lookup_published (m : Metrics) (x : String)
    (hobserved : stem x ≠ stem "provrelay_records_observed_total")
    (hwritten : stem x ≠ stem "provrelay_records_written_total")
    (herrors : stem x ≠ stem "provrelay_errors_total") :
    m.published.lookup x =
      ((perKind "provrelay_records_by_kind_total" m.writtenByKind).lookup x).or
        ((perKind "provrelay_records_suppressed_total" m.suppressedByKind).lookup x) := by
  rw [published_eq]
  simp only [List.lookup_append]
  rw [lookup_total hobserved, lookup_total hwritten, lookup_total herrors, Option.none_or,
    Option.none_or, Option.or_none]

/-- **The figure of the lines of a kind** is their count. -/
lemma figure_writtenName (m : Metrics) (k : Kind) :
    m.figure (writtenName k) = m.writtenByKind.get k := by
  have hstem := stem_writtenName k
  have hother : ∀ l, stem (writtenName k) ≠ stem (suppressedName l) := by
    intro l
    rw [hstem, stem_suppressedName]
    decide
  have hlookup := lookup_published m (writtenName k) (by rw [hstem]; decide)
    (by rw [hstem]; decide) (by rw [hstem]; decide)
  rw [lookup_perKind_of_ne hother, Option.or_none, writtenName, lookup_perKind] at hlookup
  rw [figure, writtenName, hlookup, Tally.get]

/-- **The figure of the records suppressed of a kind** is their count. -/
lemma figure_suppressedName (m : Metrics) (k : Kind) :
    m.figure (suppressedName k) = m.suppressedByKind.get k := by
  have hstem := stem_suppressedName k
  have hother : ∀ l, stem (suppressedName k) ≠ stem (writtenName l) := by
    intro l
    rw [hstem, stem_writtenName]
    decide
  have hlookup := lookup_published m (suppressedName k) (by rw [hstem]; decide)
    (by rw [hstem]; decide) (by rw [hstem]; decide)
  rw [lookup_perKind_of_ne hother, Option.none_or, suppressedName, lookup_perKind] at hlookup
  rw [figure, suppressedName, hlookup, Tally.get]

end Metrics

end ProvenanceRelay
