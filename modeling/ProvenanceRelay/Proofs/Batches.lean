import Mathlib
import ProvenanceRelay.Proofs.ReaderStart

/-!
What a reader holds between its steps.

What it has read fits the room for a drain, so a batch has at most as many records as are asked for
at once, all of them whole, and there is no empty one. A step of the reader is one of its loop, an
act that is left to do, a call that panics, or a step outside the loop.
-/

namespace ProvenanceRelay.Reader

lemma length_records {size : ℕ} (hpos : 0 < size) (bs : Bytes) :
    (records size bs).length = bs.length / size := by
  rw [records_eq_slices hpos, List.length_map, List.length_range]

/-! ### Batches -/

/-- What is held fits the room for a drain, and is some whole records if it is a batch. -/
def Phase.Fits (d : Drain) : Phase → Prop
  | .reading buf | .torn buf => buf.length ≤ d.capacity
  | .batch rs => rs ≠ [] ∧ rs.length ≤ d.perDrain.toNat ∧ ∀ r ∈ rs, r.length = d.shape.size
  | _ => True

/-- What a read gives where one is waited for. -/
def Phase.result? : Phase → Input → Option ReadResult
  | .reading _, .read result => some result
  | _, _ => none

/-- A drain has begun and has yet to return. -/
def Phase.Draining : Phase → Prop
  | .reading _ | .torn _ => True
  | _ => False

namespace Drain

variable {d : Drain}

lemma perDrain_pos (h : d.perDrain ≠ 0) : 0 < d.perDrain.toNat :=
  Nat.pos_of_ne_zero fun hzero => h (UInt64.toNat_inj.mp hzero)

lemma lt_capacity_of_torn {buf : Bytes} (h : buf.length ≤ d.capacity)
    (htorn : buf.length % d.shape.size ≠ 0) : buf.length < d.capacity := by
  refine lt_of_le_of_ne h fun hfull => htorn ?_
  rw [hfull]
  exact Nat.mod_eq_zero_of_dvd (Nat.dvd_mul_right _ _)

lemma fits_release {buf : Bytes} (h : buf.length ≤ d.capacity) : (d.release buf).1.Fits d := by
  have hlength := length_records d.shape.size_pos buf
  obtain ⟨-, -, -, hall⟩ := records_rest d.shape.size_pos buf
  unfold release
  split
  · trivial
  · next rs hrs =>
    refine ⟨hrs, ?_, hall⟩
    rw [hlength]
    exact Nat.div_le_of_le_mul h

lemma fits_settle {buf : Bytes} (h : buf.length ≤ d.capacity) : (d.settle buf).1.Fits d := by
  unfold settle
  split
  · exact fits_release h
  · exact h

lemma length_append_take_le {buf : Bytes} (h : buf.length ≤ d.capacity) (bs : Bytes) :
    (buf ++ bs.take (d.room buf)).length ≤ d.capacity := by
  simp only [List.length_append, List.length_take, room]
  omega

lemma fits_step {p : Phase} (h : p.Fits d) (i : Input) : (d.step p i).1.Fits d := by
  have hmove := d.move p i
  generalize (d.step p i).1 = q, (d.step p i).2 = ds, d.taken p i = bs at hmove
  cases hmove with
  | idle | resume => exact h
  | start | stop | pollFault | readFault | exhaust => trivial
  | ready => exact Nat.zero_le _
  | get buf bs => exact fits_settle (length_append_take_le h bs)
  | block buf => exact fits_settle h
  | abandon buf => exact fits_release h
  | dispatch r rs =>
    obtain ⟨-, hlength, hall⟩ := h
    cases rs with
    | nil => trivial
    | cons s rs =>
      exact ⟨by simp, (Nat.le_succ _).trans hlength, fun x hx => hall x (by simp [hx])⟩

/-- What a step does: nothing, telling of a fault, beginning a batch, or going on with one. -/
inductive Does (d : Drain) : Phase → Phase → List Deed → Prop
  | nothing {p q : Phase} (queue : q.queue = p.queue) : Does d p q []
  | fault {p : Phase} (message : String) (queue : p.queue = []) : Does d p .top [.fault message]
  | drained {p : Phase} {rs : List Bytes} (queue : p.queue = []) : Does d p (.batch rs) [.drained]
  | dispatch {r : Bytes} {rs : List Bytes} {q : Phase} (size : r.length = d.shape.size)
      (queue : q.queue = rs) (outside : ¬ q.Draining) : Does d (.batch (r :: rs)) q [.dispatch r]

lemma does_release {p : Phase} {buf : Bytes} (hp : p.queue = []) :
    d.Does p (d.release buf).1 (d.release buf).2 := by
  unfold release
  split
  · exact .nothing hp.symm
  · exact .drained hp

lemma does_settle {p : Phase} {buf : Bytes} (hp : p.queue = []) :
    d.Does p (d.settle buf).1 (d.settle buf).2 := by
  unfold settle
  split
  · exact does_release hp
  · exact .nothing hp.symm

lemma does_step {p : Phase} (h : p.Fits d) (i : Input) :
    d.Does p (d.step p i).1 (d.step p i).2 := by
  have hmove := d.move p i
  generalize (d.step p i).1 = q, (d.step p i).2 = ds, d.taken p i = bs at hmove
  cases hmove with
  | idle | start | stop | ready | resume => exact .nothing rfl
  | pollFault e => exact .fault _ rfl
  | readFault buf e => exact .fault _ rfl
  | get buf bs => exact does_settle rfl
  | block buf => exact does_settle rfl
  | abandon buf => exact does_release rfl
  | dispatch r rs =>
    refine .dispatch (h.2.2 r (by simp)) ?_ ?_
    · cases rs <;> rfl
    · cases rs <;> exact id
  | exhaust => exact absurd rfl h.1

end Drain

/-! ### The steps of a reader -/

/-- Where a reader is in its loop; at the top before and after it. -/
def phase (r : Reader) : Phase :=
  match r.stage with
  | .looping p => p
  | _ => .top

variable {policy : Policy} {r : Reader} {n : News}

lemma phase_eq {p : Phase} (h : r.stage = .looping p) : r.phase = p := by rw [phase, h]

lemma Fresh.phase_eq (h : r.Fresh) : r.phase = .top := by rw [phase, h.stage]

lemma taken_eq (r : Reader) (n : News) :
    r.taken n = (r.input? n).elim [] (r.drain.taken r.phase) := by
  unfold taken input?
  split
  · next p i htodo hstage =>
    rw [phase_eq hstage]
    rfl
  · rfl

/-- What a read gives in a step, if it is a read that the reader waits for. -/
def result? (r : Reader) (n : News) : Option ReadResult := (r.input? n).bind r.phase.result?

lemma input?_eq_some {p : Phase} (htodo : r.todo = []) (hstage : r.stage = .looping p) (i : Input) :
    r.input? (.loop i) = some i := by
  simp [input?, htodo, hstage]

/-- The steps of a reader: the state that a step leads to, the act that it performs, and what the
loop learns in it. -/
inductive Goes (policy : Policy) (r : Reader) : News → Reader → Option Act → Option Input → Prop
  | idle (n : News) : Goes policy r n r none none
  | loop {p : Phase} (i : Input) (todo : r.todo = []) (stage : r.stage = .looping p) :
      Goes policy r (.loop i)
        { r with
          stage := .looping (r.drain.step p i).1
          todo := (r.drain.step p i).2.flatMap (deedActs policy r.channel.shape) } none (some i)
  | act {a : Act} {as : List Act} (todo : r.todo = a :: as) :
      Goes policy r .go { r with todo := as } (some a) none
  | panic {c : Call} {as : List Act} {s : Stage} (todo : r.todo = .call c :: as)
      (stage : s = .unwinding ∨ s = .closing) :
      Goes policy r .panic { r with stage := s, todo := [], panicked := true } (some (.call c)) none
  /-- A step outside the loop, into it or out of it. -/
  | move {n : News} {x : Reader} {a : Option Act} (todo : r.todo = [])
      (before : r.phase = .top ∨ r.phase = .done) (after : x.phase = .top)
      (drain : x.drain = r.drain) (left : x.todo = [] ∨ ∃ m, x.todo = [.call (.report m)])
      (init : a = none ∨ a = some (.call .init)) : Goes policy r n x a none

lemma goes (policy : Policy) (r : Reader) (n : News) :
    r.Goes policy n (r.step policy n).1 (r.actOf? policy n) (r.input? n) := by
  obtain ⟨channel, perDrain, pins, stage, todo, panicked⟩ := r
  cases todo with
  | cons a as =>
    cases n with
    | go => exact .act rfl
    | panic =>
      cases a with
      | call c =>
        refine .panic rfl ?_
        cases stage.canTell
        · exact .inr rfl
        · exact .inl rfl
      | _ => exact .idle _
    | _ => cases a <;> exact .idle _
  | nil =>
    cases stage with
    | looping p =>
      cases n with
      | loop i => exact .loop i rfl rfl
      | go =>
        cases p with
        | done => exact .move rfl (.inr rfl) rfl rfl (.inl rfl) (.inl rfl)
        | _ => exact .idle _
      | pinned fault => cases fault <;> exact .idle _
      | panic => exact .idle _
    | pinning =>
      rcases n with (_ | e) | i | _ | _
      · cases pins <;> exact .move rfl (.inl rfl) rfl rfl (.inl rfl) (.inl rfl)
      · cases pins
        · exact .idle _
        · exact .move rfl (.inl rfl) rfl rfl (.inr ⟨_, rfl⟩) (.inl rfl)
      · exact .idle _
      · cases pins <;> exact .move rfl (.inl rfl) rfl rfl (.inl rfl) (.inl rfl)
      · exact .idle _
    | initializing =>
      cases n with
      | go | panic => exact .move rfl (.inl rfl) rfl rfl (.inl rfl) (.inr rfl)
      | pinned fault => cases fault <;> exact .idle _
      | loop i => exact .idle _
    | acknowledged =>
      cases n with
      | go =>
        simp only [Reader.step, Reader.move, actOf?]
        split <;> exact .move rfl (.inl rfl) rfl rfl (.inl rfl) (.inl rfl)
      | pinned fault => cases fault <;> exact .idle _
      | _ => exact .idle _
    | refused | acknowledging | unwinding | closing | gone =>
      cases n with
      | go => exact .move rfl (.inl rfl) rfl rfl (.inl rfl) (.inl rfl)
      | pinned fault => cases fault <;> exact .idle _
      | _ => exact .idle _

/-- What is held fits, and a reader in a drain has nothing left to do. -/
structure Tidy (r : Reader) : Prop where
  fits : r.phase.Fits r.drain
  idle : r.phase.Draining → r.todo = []

lemma Fresh.tidy (h : r.Fresh) : r.Tidy := by
  exact ⟨by rw [h.phase_eq]; trivial, fun _ => h.todo⟩

lemma Tidy.step (h : r.Tidy) (n : News) : (r.step policy n).1.Tidy := by
  obtain ⟨hfits, hidle⟩ := h
  have hgoes := r.goes policy n
  generalize (r.step policy n).1 = x, r.actOf? policy n = a, r.input? n = i at hgoes
  cases hgoes with
  | idle => exact ⟨hfits, hidle⟩
  | @loop p i todo stage =>
    rw [phase_eq stage] at hfits
    refine ⟨Drain.fits_step hfits i, fun hq => ?_⟩
    have hdoes := Drain.does_step hfits i
    show (r.drain.step p i).2.flatMap _ = []
    replace hq : (r.drain.step p i).1.Draining := hq
    generalize (r.drain.step p i).1 = q, (r.drain.step p i).2 = ds at hdoes hq
    cases hdoes with
    | nothing => rfl
    | fault | drained => exact hq.elim
    | dispatch _ _ outside => exact absurd hq outside
  | act todo => exact ⟨hfits, fun hq => absurd (hidle hq) (by rw [todo]; simp)⟩
  | panic todo stage => rcases stage with rfl | rfl <;> exact ⟨trivial, fun _ => rfl⟩
  | move todo before after =>
    refine ⟨by rw [after]; trivial, fun hq => ?_⟩
    rw [after] at hq
    exact hq.elim

lemma Fresh.tidy_run (h : r.Fresh) (policy : Policy) (ns : List News) :
    (r.run policy ns).drain = r.drain ∧ (r.run policy ns).Tidy ∧
      ∃ ms, (r.run policy ns).Begun ms := by
  suffices hrun : ∀ (ns : List News) (x : Reader), x.drain = r.drain → x.Tidy →
      (∃ ms, x.Begun ms) → (x.run policy ns).drain = r.drain ∧ (x.run policy ns).Tidy ∧
        ∃ ms, (x.run policy ns).Begun ms from hrun ns r rfl h.tidy ⟨[], h.begun⟩
  intro ns
  induction ns with
  | nil => exact fun x hdrain htidy hbegun => ⟨hdrain, htidy, hbegun⟩
  | cons n ns ih =>
    intro x hdrain htidy hbegun
    obtain ⟨ms, hms⟩ := hbegun
    exact ih _ ((x.drain_step n).trans hdrain) (htidy.step n) ⟨_, hms.step n⟩

end ProvenanceRelay.Reader
