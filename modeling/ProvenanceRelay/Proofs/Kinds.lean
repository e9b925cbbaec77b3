import Mathlib
import ProvenanceRelay.Output.JsonLines

/-!
Kinds of records and their names.

A kind is told by its name, so counting by name is counting by kind. A record that can be decoded
is handled under the kind that its tag announces.
-/

namespace ProvenanceRelay

/-! ### Names -/

namespace Kind

lemma ofName?_name (k : Kind) : ofName? k.name = some k := by cases k <;> decide

lemma name_injective : Function.Injective name := by
  intro k l h
  have hk := ofName?_name k
  rw [h, ofName?_name] at hk
  exact (Option.some.inj hk).symm

lemma sum_ite_eq (k : Kind) : (all.map fun l => if k = l then 1 else 0).sum = 1 := by
  cases k <;> decide

lemma sum_countP {α : Type} (kind : α → Kind) (p : α → Bool) (xs : List α) :
    (all.map fun k => xs.countP fun x => p x && decide (kind x = k)).sum = xs.countP p := by
  induction xs with
  | nil => simp
  | cons x xs ih =>
    have hone : (all.map fun k => if p x && decide (kind x = k) then 1 else 0).sum =
        if p x then 1 else 0 := by
      cases hp : p x with
      | false => simp
      | true => simpa using sum_ite_eq (kind x)
    simp only [List.countP_cons, List.sum_map_add, ih, hone]

end Kind

/-! ### The kind of a decoded record -/

lemma exists_of_map_eq_ok {ε α β : Type} {x : Except ε α} {f : α → β} {b : β}
    (h : f <$> x = .ok b) : ∃ a, x = .ok a ∧ f a = b := by
  cases x with
  | error e => cases h
  | ok a => exact ⟨a, rfl, Except.ok.inj h⟩

lemma exists_of_bind_eq_ok {ε α β : Type} {x : Except ε α} {f : α → Except ε β} {b : β}
    (h : x >>= f = .ok b) : ∃ a, x = .ok a ∧ f a = .ok b := by
  cases x with
  | error e => cases h
  | ok a => exact ⟨a, rfl, h⟩

namespace Record

lemma kind_shortPayload (r : Record .short) (k : ShortKind) :
    (Payload.short (r.shortPayload k)).kind = k.kind := by
  rcases k with k | k
  · rfl
  · cases k <;> rfl

lemma kind_of_disclosedNode {r : Record .long} {k : DisclosedKind} {n : DisclosedNode}
    (h : r.disclosedNode k = .ok n) : n.kind = k := by
  obtain ⟨content, -, hn⟩ := exists_of_bind_eq_ok h
  rw [← Except.ok.inj hn]

lemma kind_longPayload {r : Record .long} {k : LongKind} {p : LongPayload}
    (h : r.longPayload k = .ok p) : (Payload.long p).kind = k.kind := by
  cases k with
  | machine =>
    rw [← Except.ok.inj h]
    rfl
  | disclosedEntity | disclosedActivity | disclosedAgent =>
    obtain ⟨n, hn, rfl⟩ := exists_of_map_eq_ok h
    simp only [Payload.kind, kind_of_disclosedNode hn, LongKind.kind]
  | _ =>
    obtain ⟨e, -, rfl⟩ := exists_of_map_eq_ok h
    rfl

end Record

namespace AnyRecord

/-- **A decoded record is handled under the kind that its tag tells**. -/
lemma kind?_of_decode {r : AnyRecord} {p : Payload} (h : r.decode = .ok p) :
    r.kind? = some p.kind := by
  cases r with
  | short r =>
    obtain ⟨q, hq, rfl⟩ := exists_of_map_eq_ok h
    obtain ⟨k, hk, rfl⟩ := exists_of_map_eq_ok hq
    rw [Record.kind_shortPayload, kind?, hk]
    rfl
  | long r =>
    obtain ⟨q, hq, rfl⟩ := exists_of_map_eq_ok h
    obtain ⟨k, hk, hpayload⟩ := exists_of_bind_eq_ok hq
    rw [Record.kind_longPayload hpayload, kind?, hk]
    rfl

end AnyRecord

end ProvenanceRelay
