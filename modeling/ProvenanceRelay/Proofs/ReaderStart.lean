import Mathlib
import ProvenanceRelay.Proofs.ReaderRun

/-!
How a reader starts.

A reader leaves a mark when it cannot be pinned, when the handler's initialization returns or
panics, and when it tells something. A reader that starts is initialized and tells so; any other
says at most that it could not be pinned. So each reader tells at most one thing, and one that can
be heard of no more has either started or failed.
-/

namespace ProvenanceRelay.Reader

/-- What the start of a reader comes to. -/
inductive Mark where
  | unpinned (cause : SystemError)
  /-- The handler's initialization has returned. -/
  | initialized
  /-- It has panicked. -/
  | panicked
  | told (a : Ack)
  deriving DecidableEq

def Mark.ack? : Mark → Option Ack
  | .told a => some a
  | _ => none

def tidings (ms : List Mark) : List Ack := ms.filterMap Mark.ack?

@[simp] lemma tidings_append (ms ns : List Mark) :
    tidings (ms ++ ns) = tidings ms ++ tidings ns := List.filterMap_append

@[simp] lemma tidings_nil : tidings [] = [] := rfl
@[simp] lemma tidings_unpinned (e : SystemError) (ms : List Mark) :
    tidings (.unpinned e :: ms) = tidings ms := rfl
@[simp] lemma tidings_initialized (ms : List Mark) :
    tidings (.initialized :: ms) = tidings ms := rfl
@[simp] lemma tidings_panicked (ms : List Mark) : tidings (.panicked :: ms) = tidings ms := rfl
@[simp] lemma tidings_told (a : Ack) (ms : List Mark) :
    tidings (.told a :: ms) = a :: tidings ms := rfl

variable (policy : Policy)

def telling? (r : Reader) (n : News) : Option Ack :=
  match (r.step policy n).2 with
  | some (.tell a) => some a
  | _ => none

/-- The mark that a step leaves, if any. -/
def mark? (r : Reader) (n : News) : Option Mark :=
  match r.todo, r.stage, n with
  | [], .pinning, .pinned (some e) => if r.pins then some (.unpinned e) else none
  | [], .initializing, .go => some .initialized
  | [], .initializing, .panic => some .panicked
  | _, _, _ => (r.telling? policy n).map .told

/-- A reader that does not start: it panics on its way, or it cannot be pinned. -/
inductive Stillborn (pins : Bool) : List Mark → Prop
  | panicked : Stillborn pins [.panicked]
  | unpinned (e : SystemError) (hpins : pins = true) : Stillborn pins [.unpinned e]
  | refused (e : SystemError) (cpu : ℕ) (hpins : pins = true) :
      Stillborn pins [.unpinned e, .told (.refused cpu e)]

/-- The marks of a reader that has started. -/
def started : List Mark := [.initialized, .told .started]

/-- The marks that a reader has left by now. -/
def Begun (r : Reader) (ms : List Mark) : Prop :=
  match r.stage with
  | .pinning | .initializing => r.todo = [] ∧ ms = []
  | .refused e => r.pins = true ∧ ms = [.unpinned e]
  | .acknowledging => r.todo = [] ∧ ms = [.initialized]
  | .acknowledged => r.todo = [] ∧ ms = started
  | .looping _ => ms = started
  | .unwinding => r.todo = [] ∧ Stillborn r.pins ms
  | .closing | .gone => r.todo = [] ∧ (ms = started ∨ Stillborn r.pins ms)

variable {policy}

lemma Fresh.begun {r : Reader} (h : r.Fresh) : r.Begun [] := by
  simp [Begun, h.stage, h.todo]

section

variable {r : Reader} {ms : List Mark}

lemma Begun.move (h : r.Begun ms) (htodo : r.todo = []) (n : News) :
    (r.step policy n).1.Begun (ms ++ (r.mark? policy n).toList) := by
  obtain ⟨channel, perDrain, pins, stage, todo, panicked⟩ := r
  obtain rfl : todo = [] := htodo
  cases stage with
  | pinning =>
    obtain ⟨-, rfl⟩ := h
    rcases n with (_ | e) | i | _ | _
    · cases pins <;> exact ⟨rfl, rfl⟩
    · cases pins <;> exact ⟨rfl, rfl⟩
    · exact ⟨rfl, rfl⟩
    · cases pins <;> exact ⟨rfl, rfl⟩
    · exact ⟨rfl, rfl⟩
  | refused e =>
    obtain ⟨hpins, rfl⟩ := h
    rcases n with (_ | f) | i | _ | _
    · exact ⟨hpins, rfl⟩
    · exact ⟨hpins, rfl⟩
    · exact ⟨hpins, rfl⟩
    · exact ⟨rfl, .refused e _ hpins⟩
    · exact ⟨hpins, rfl⟩
  | initializing =>
    obtain ⟨-, rfl⟩ := h
    rcases n with (_ | e) | i | _ | _
    · exact ⟨rfl, rfl⟩
    · exact ⟨rfl, rfl⟩
    · exact ⟨rfl, rfl⟩
    · exact ⟨rfl, rfl⟩
    · exact ⟨rfl, .panicked⟩
  | acknowledging =>
    obtain ⟨-, rfl⟩ := h
    rcases n with (_ | e) | i | _ | _ <;> exact ⟨rfl, rfl⟩
  | acknowledged =>
    obtain ⟨-, rfl⟩ := h
    rcases n with (_ | e) | i | _ | _
    · exact ⟨rfl, rfl⟩
    · exact ⟨rfl, rfl⟩
    · exact ⟨rfl, rfl⟩
    · -- without room for its records it ends at once
      simp only [Reader.step, Reader.move, mark?, telling?]
      split
      · exact ⟨rfl, .inl rfl⟩
      · rfl
    · exact ⟨rfl, rfl⟩
  | looping p =>
    obtain rfl := h
    rcases n with (_ | e) | i | _ | _
    · rfl
    · rfl
    · rfl
    · cases p with
      | done => exact ⟨rfl, .inl rfl⟩
      | _ => rfl
    · rfl
  | unwinding =>
    obtain ⟨-, hstillborn⟩ := h
    have hms : ms ++ [] = ms := List.append_nil ms
    rcases n with (_ | e) | i | _ | _
    · exact ⟨rfl, hms.symm ▸ hstillborn⟩
    · exact ⟨rfl, hms.symm ▸ hstillborn⟩
    · exact ⟨rfl, hms.symm ▸ hstillborn⟩
    · exact ⟨rfl, .inr (hms.symm ▸ hstillborn)⟩
    · exact ⟨rfl, hms.symm ▸ hstillborn⟩
  | closing | gone =>
    obtain ⟨-, hends⟩ := h
    have hms : ms ++ [] = ms := List.append_nil ms
    rcases n with (_ | e) | i | _ | _ <;> exact ⟨rfl, hms.symm ▸ hends⟩

/-- **A reader leaves its marks in order**: each step adds at most the next one. -/
lemma Begun.step (h : r.Begun ms) (n : News) :
    (r.step policy n).1.Begun (ms ++ (r.mark? policy n).toList) := by
  cases htodo : r.todo with
  | nil => exact h.move htodo n
  | cons a as =>
    obtain ⟨channel, perDrain, pins, stage, todo, panicked⟩ := r
    obtain rfl : todo = a :: as := htodo
    -- only a reader that could not be pinned or is in its loop has something left to do
    cases stage with
    | refused e =>
      obtain ⟨hpins, rfl⟩ := h
      rcases n with f | i | _ | _
      · cases a <;> exact ⟨hpins, rfl⟩
      · cases a <;> exact ⟨hpins, rfl⟩
      · cases a <;> exact ⟨hpins, rfl⟩
      · cases a with
        | call c => exact ⟨rfl, .unpinned e hpins⟩
        | _ => exact ⟨hpins, rfl⟩
    | looping p =>
      obtain rfl := h
      rcases n with f | i | _ | _
      · cases a <;> rfl
      · cases a <;> rfl
      · cases a <;> rfl
      · cases a with
        | call c => exact ⟨rfl, .inl rfl⟩
        | _ => rfl
    | _ => exact absurd h.1 (by simp)

lemma Begun.length_tidings_le (h : r.Begun ms) : (tidings ms).length ≤ 1 := by
  have hstillborn : ∀ pins, Stillborn pins ms → (tidings ms).length ≤ 1 := by
    intro pins hms
    cases hms <;> simp
  have hstarted : ms = started → (tidings ms).length ≤ 1 := by
    rintro rfl
    simp [started]
  unfold Begun at h
  split at h
  · simp [h.2]
  · simp [h.2]
  · simp [h.2]
  · simp [h.2]
  · exact hstarted h.2
  · exact hstarted h
  · exact hstillborn _ h.2
  · exact h.2.elim hstarted (hstillborn _)
  · exact h.2.elim hstarted (hstillborn _)

/-- A reader that can be heard of no more has started or failed. -/
lemma Begun.of_silent (h : r.Begun ms) (hsilent : r.stage.canTell = false) :
    ms = started ∨ Stillborn r.pins ms := by
  unfold Begun at h
  split at h <;> simp_all [Stage.canTell]

lemma Begun.eq_started (h : r.Begun ms) (htold : .started ∈ tidings ms) : ms = started := by
  have hstillborn : ∀ pins, ¬ Stillborn pins ms := by
    intro pins hms
    cases hms <;> simp at htold
  unfold Begun at h
  split at h
  · simp [h.2] at htold
  · simp [h.2] at htold
  · simp [h.2] at htold
  · simp [h.2] at htold
  · exact h.2
  · exact h
  · exact (hstillborn _ h.2).elim
  · exact h.2.resolve_right (hstillborn _)
  · exact h.2.resolve_right (hstillborn _)

lemma Begun.pins_of_refused (h : r.Begun ms) {cpu : ℕ} {e : SystemError}
    (htold : .refused cpu e ∈ tidings ms) : r.pins = true := by
  have hstillborn : Stillborn r.pins ms → r.pins = true := by
    rintro (_ | ⟨_, hpins⟩ | ⟨_, _, hpins⟩)
    · simp at htold
    · exact hpins
    · exact hpins
  have hstarted : ms ≠ started := by
    rintro rfl
    simp [started] at htold
  unfold Begun at h
  split at h
  · simp [h.2] at htold
  · simp [h.2] at htold
  · exact h.1
  · simp [h.2] at htold
  · exact (hstarted h.2).elim
  · exact (hstarted h).elim
  · exact hstillborn h.2
  · exact hstillborn (h.2.resolve_left hstarted)
  · exact hstillborn (h.2.resolve_left hstarted)

lemma telling?_eq_some {n : News} {a : Ack} (h : r.telling? policy n = some a) :
    r.todo = [] ∧ (r.stage = .acknowledging ∨ ∃ e, r.stage = .refused e) := by
  cases htodo : r.todo with
  | cons b bs => cases b <;> cases n <;> simp [telling?, step, htodo] at h
  | nil =>
    refine ⟨rfl, ?_⟩
    cases hstage : r.stage with
    | acknowledging => exact .inl rfl
    | refused e => exact .inr ⟨e, rfl⟩
    | pinning =>
      rcases n with (_ | e) | i | _ | _ <;> simp [telling?, step, move, htodo, hstage] at h
    | looping p =>
      rcases n with (_ | e) | i | _ | _
      · simp [telling?, step, move, htodo, hstage] at h
      · simp [telling?, step, move, htodo, hstage] at h
      · simp [telling?, step, move, htodo, hstage] at h
      · cases p <;> simp [telling?, step, move, htodo, hstage] at h
      · simp [telling?, step, move, htodo, hstage] at h
    | acknowledged =>
      rcases n with f | i | _ | _
      · simp [telling?, step, move, htodo, hstage] at h
      · simp [telling?, step, move, htodo, hstage] at h
      · by_cases hroom : maxCapacity < r.drain.capacity <;>
          simp [telling?, step, move, htodo, hstage, hroom] at h
      · simp [telling?, step, move, htodo, hstage] at h
    | _ => cases n <;> simp [telling?, step, move, htodo, hstage] at h

lemma Begun.tidings_eq_nil (h : r.Begun ms) {n : News} {a : Ack}
    (ha : r.telling? policy n = some a) : tidings ms = [] := by
  obtain ⟨-, hstage | ⟨e, hstage⟩⟩ := telling?_eq_some ha
  · simp only [Begun, hstage] at h
    simp [h.2]
  · simp only [Begun, hstage] at h
    simp [h.2]

lemma telling?_of_silent (hsilent : r.stage.canTell = false) (n : News) :
    r.telling? policy n = none := by
  rcases htelling : r.telling? policy n with _ | a
  · rfl
  · obtain ⟨-, hstage | ⟨e, hstage⟩⟩ := telling?_eq_some htelling <;>
      simp [hstage, Stage.canTell] at hsilent

end

lemma tidings_mark? (r : Reader) (n : News) :
    tidings (r.mark? policy n).toList = (r.telling? policy n).toList := by
  have hsilent : ∀ {s : Stage}, r.stage = s → s ≠ .acknowledging → (∀ e, s ≠ .refused e) →
      r.telling? policy n = none := by
    intro s hs hacknowledging hrefused
    rcases htelling : r.telling? policy n with _ | a
    · rfl
    · obtain ⟨-, hstage | ⟨e, hstage⟩⟩ := telling?_eq_some htelling
      · exact (hacknowledging (hs.symm.trans hstage)).elim
      · exact (hrefused e (hs.symm.trans hstage)).elim
  have htold : ∀ t : Option Ack, tidings (t.map .told).toList = t.toList := by
    rintro (_ | a) <;> rfl
  unfold mark?
  split
  · next hstage =>
    rw [hsilent hstage (by simp) (by simp)]
    split <;> rfl
  · next hstage =>
    rw [hsilent hstage (by simp) (by simp)]
    rfl
  · next hstage =>
    rw [hsilent hstage (by simp) (by simp)]
    rfl
  · exact htold _

lemma pins_step (r : Reader) (n : News) : (r.step policy n).1.pins = r.pins := by
  unfold step
  split
  · unfold move
    split <;> split <;> (try split) <;> rfl
  all_goals rfl

lemma silent_step {r : Reader} (hsilent : r.stage.canTell = false) (n : News) :
    (r.step policy n).1.stage.canTell = false := by
  unfold step
  split
  · unfold move
    split <;> split <;> (try split) <;> simp_all [Stage.canTell]
  · exact hsilent
  · show (if r.stage.canTell then Stage.unwinding else Stage.closing).canTell = false
    rw [hsilent]
    rfl
  · exact hsilent

end ProvenanceRelay.Reader
