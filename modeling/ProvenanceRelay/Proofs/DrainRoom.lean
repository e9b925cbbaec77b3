import Mathlib
import ProvenanceRelay.Config.Check
import ProvenanceRelay.Proofs.Batches
import ProvenanceRelay.Proofs.Startup

/-!
The room that readers have for a drain.

The room is for whole records, so a full buffer ends on the boundary of a record and a reader never
reads without room. It gets the room only if there is so much: a reader that asks for more has told
that it has started by then, and panics. The check of a configuration asks that the number of
records is not zero, and sets it no bound.
-/

namespace ProvenanceRelay

namespace Reader

def Phase.HasRoom (d : Drain) : Phase → Prop
  | .reading buf | .torn buf => buf.length < d.capacity
  | _ => True

namespace Drain

variable {d : Drain}

lemma capacity_pos (h : d.perDrain ≠ 0) : 0 < d.capacity :=
  Nat.mul_pos d.shape.size_pos (perDrain_pos h)

lemma hasRoom_release (buf : Bytes) : (d.release buf).1.HasRoom d := by
  unfold release
  split <;> trivial

lemma hasRoom_settle {buf : Bytes} (h : buf.length ≤ d.capacity) :
    (d.settle buf).1.HasRoom d := by
  unfold settle
  split
  · exact hasRoom_release buf
  · next htorn => exact lt_capacity_of_torn h htorn

lemma hasRoom_step (hpos : 0 < d.capacity) {p : Phase} (h : p.HasRoom d) (i : Input) :
    (d.step p i).1.HasRoom d := by
  have hmove := d.move p i
  generalize (d.step p i).1 = q, (d.step p i).2 = ds, d.taken p i = bs at hmove
  cases hmove with
  | idle | resume => exact h
  | start | stop | pollFault | readFault | exhaust => trivial
  | ready => exact hpos
  | get buf bs => exact hasRoom_settle (length_append_take_le (le_of_lt h) bs)
  | block buf => exact hasRoom_settle (le_of_lt h)
  | abandon buf => exact hasRoom_release buf
  | dispatch r rs =>
    split <;> trivial

end Drain

/-! ### Readers -/

/-- A reader in its loop has got the room for a drain, and has some left when it reads. -/
def Roomy (r : Reader) : Prop :=
  ∀ p, r.stage = .looping p → r.drain.capacity ≤ maxCapacity ∧ p.HasRoom r.drain

variable {policy : Policy} {r : Reader} {n : News}

/-- A reader comes into its loop when it gets the room, and stays there step by step. -/
lemma looping_step {p : Phase} (h : (r.step policy n).1.stage = .looping p) :
    r.stage = .looping p ∨
      (r.stage = .acknowledged ∧ r.drain.capacity ≤ maxCapacity ∧ p = .top) ∨
      ∃ q i, r.stage = .looping q ∧ p = (r.drain.step q i).1 := by
  obtain ⟨channel, perDrain, pins, stage, todo, panicked⟩ := r
  cases todo with
  | cons a as =>
    -- what is left to do has no part in the loop, and ends it when a call panics
    left
    cases n <;> cases a <;> try exact h
    simp only [step] at h
    split at h <;> cases h
  | nil =>
    cases n with
    | pinned fault =>
      left
      cases fault <;> cases stage <;> (try cases pins) <;> first | exact h | cases h
    | loop i =>
      cases stage with
      | looping q => exact .inr (.inr ⟨q, i, rfl, (Stage.looping.inj h).symm⟩)
      | _ => exact .inl h
    | go =>
      cases stage with
      | pinning => cases pins <;> cases h
      | acknowledged =>
        simp only [step, move] at h
        split at h
        · cases h
        · next hroom => exact .inr (.inl ⟨rfl, not_lt.mp hroom, (Stage.looping.inj h).symm⟩)
      | looping q => cases q <;> first | exact .inl h | cases h
      | _ => cases h
    | panic =>
      left
      cases stage <;> first | exact h | cases h

lemma Roomy.step (h : r.Roomy) (hpos : 0 < r.drain.capacity) (n : News) :
    (r.step policy n).1.Roomy := by
  intro p hp
  rw [r.drain_step]
  obtain hp | ⟨-, hroom, rfl⟩ | ⟨q, i, hq, rfl⟩ := looping_step hp
  · exact h p hp
  · exact ⟨hroom, trivial⟩
  · obtain ⟨hroom, hq⟩ := h q hq
    exact ⟨hroom, Drain.hasRoom_step hpos hq i⟩

end Reader

namespace Config

end Config

namespace Relay

open Reader

variable {σ : Type}

end Relay

end ProvenanceRelay
