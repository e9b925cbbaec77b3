import Mathlib
import ProvenanceRelay.Proofs.Batches
import ProvenanceRelay.Proofs.DrainRoom

/-!
How a reader leaves its loop.

Once the running flag is cleared for good, a reader goes through at most one more read and one more
batch before it leaves. Each step that it waits for brings it nearer to its end, but for a read that
is interrupted. A drain returns at the latest when its buffer is full, also while the flag is set.
-/

namespace ProvenanceRelay.Reader

/-! ### What a reader waits for -/

def Phase.awaits : Phase → Input → Bool
  | .top, .flag _ | .torn _, .flag _ => true
  | .polling, .polled _ => true
  | .reading _, .read _ => true
  | .batch _, .next => true
  | _, _ => false

/-- What a reader waits for: a call that it makes returns or panics. -/
def awaits (r : Reader) (n : News) : Bool :=
  match r.stage, r.todo, n with
  | .gone, _, _ => false
  | _, _ :: _, .go | _, .call _ :: _, .panic => true
  | .pinning, [], .pinned _ => r.pins
  | .pinning, [], .go => !r.pins
  | .initializing, [], .panic => true
  | .looping .done, [], .go => true
  | .looping p, [], .loop i => p.awaits i
  | .looping _, [], .go => false
  | _, [], .go => true
  | _, _, _ => false

/-- A reader that has not gone waits for something, and not only for the flag to be set. -/
lemma exists_awaits {r : Reader} (h : r.stage ≠ .gone) :
    ∃ n, n ≠ .loop (.flag true) ∧ r.awaits n := by
  obtain ⟨channel, perDrain, pins, stage, todo, panicked⟩ := r
  cases todo with
  | cons a as =>
    refine ⟨.go, by simp, ?_⟩
    cases stage <;> first | rfl | exact absurd rfl h
  | nil =>
    cases stage with
    | gone => exact absurd rfl h
    | pinning =>
      cases pins
      · exact ⟨.go, by simp, rfl⟩
      · exact ⟨.pinned none, by simp, rfl⟩
    | looping p =>
      cases p with
      | top | torn => exact ⟨.loop (.flag false), by simp, rfl⟩
      | polling => exact ⟨.loop (.polled none), by simp, rfl⟩
      | reading => exact ⟨.loop (.read .wouldBlock), by simp, rfl⟩
      | batch => exact ⟨.loop .next, by simp, rfl⟩
      | done => exact ⟨.go, by simp, rfl⟩
    | _ => exact ⟨.go, by simp, rfl⟩

/-! ### Reads and records that are left -/

/-- The reads that are left when the flag is cleared. -/
def Phase.readsLeft : Phase → ℕ
  | .polling | .reading _ => 1
  | _ => 0

/-- The records that are left, at most, when the flag is cleared. -/
def Phase.recordsLeft (perDrain : ℕ) : Phase → ℕ
  | .polling | .reading _ | .torn _ => perDrain
  | .batch rs => rs.length
  | _ => 0

/-- Whether a read is completed in a step, and not interrupted. -/
def Phase.completes (p : Phase) (i : Input) : Bool :=
  (p.result? i).any (· ≠ .interrupted)

namespace Drain

variable {d : Drain}

lemma recordsLeft_of_fits {p : Phase} (h : p.Fits d) :
    p.recordsLeft d.perDrain.toNat ≤ d.perDrain.toNat := by
  cases p with
  | batch rs => exact h.2.1
  | polling | reading | torn => exact le_rfl
  | top | done => exact Nat.zero_le _

lemma left_release (d : Drain) (buf : Bytes) :
    (d.release buf).1.readsLeft = 0 ∧ dispatched (d.release buf).2 = [] := by
  unfold release
  split <;> exact ⟨rfl, rfl⟩

lemma left_settle (d : Drain) (buf : Bytes) :
    (d.settle buf).1.readsLeft = 0 ∧ dispatched (d.settle buf).2 = [] := by
  unfold settle
  split
  · exact left_release d buf
  · exact ⟨rfl, rfl⟩

/-- **A step takes what it reads and what it dispatches from what is left**, unless it finds the
flag set. -/
lemma left_step {p : Phase} (h : p.Fits d) {i : Input} (hflag : i ≠ .flag true) :
    (p.completes i).toNat + (d.step p i).1.readsLeft ≤ p.readsLeft ∧
      (dispatched (d.step p i).2).length + (d.step p i).1.recordsLeft d.perDrain.toNat ≤
        p.recordsLeft d.perDrain.toNat := by
  have hnext := recordsLeft_of_fits (fits_step h i)
  -- a read that is completed, or a part of a record that is given up
  have hreturns : ∀ (b : Bool) {q : Phase} {ds : List Deed},
      q.readsLeft = 0 ∧ dispatched ds = [] → q.recordsLeft d.perDrain.toNat ≤ d.perDrain.toNat →
      b.toNat + q.readsLeft ≤ 1 ∧
        (dispatched ds).length + q.recordsLeft d.perDrain.toNat ≤ d.perDrain.toNat := by
    rintro b q ds ⟨hreads, hnone⟩ hrecords
    rw [hreads, hnone, List.length_nil, Nat.zero_add]
    exact ⟨Bool.toNat_le b, hrecords⟩
  cases p with
  | top =>
    cases i with
    | flag b =>
      cases b with
      | false => exact ⟨le_rfl, le_rfl⟩
      | true => exact absurd rfl hflag
    | _ => exact ⟨le_rfl, le_rfl⟩
  | polling =>
    cases i with
    | polled fault =>
      cases fault with
      | none => exact ⟨le_rfl, (Nat.zero_add _).le⟩
      | some e => exact ⟨Nat.zero_le _, Nat.zero_le _⟩
    | _ => exact ⟨le_rfl, (Nat.zero_add _).le⟩
  | reading buf =>
    -- whatever a completed read brings, no further one is left
    cases i with
    | read result =>
      cases result with
      | data bs => exact hreturns _ (d.left_settle _) hnext
      | wouldBlock => exact hreturns _ (d.left_settle _) hnext
      | interrupted => exact ⟨le_rfl, (Nat.zero_add _).le⟩
      | failed e => exact hreturns _ ⟨rfl, rfl⟩ hnext
    | _ => exact ⟨le_rfl, (Nat.zero_add _).le⟩
  | torn buf =>
    cases i with
    | flag b =>
      cases b with
      | false =>
        obtain ⟨hreads, hnone⟩ := d.left_release buf
        exact ⟨(Nat.zero_add _).trans_le hreads.le, (hreturns false ⟨hreads, hnone⟩ hnext).2⟩
      | true => exact absurd rfl hflag
    | _ => exact ⟨le_rfl, (Nat.zero_add _).le⟩
  | batch rs =>
    cases rs with
    | nil => exact absurd rfl h.1
    | cons r rs =>
      cases i with
      | next =>
        cases rs with
        | nil => exact ⟨le_rfl, le_rfl⟩
        | cons s rs => exact ⟨le_rfl, (Nat.add_comm _ _).le⟩
      | _ => exact ⟨le_rfl, (Nat.zero_add _).le⟩
  | done => exact ⟨le_rfl, le_rfl⟩

end Drain

/-! ### The way to the end -/

/-- How far it is from a phase to the end of the loop when the flag is cleared. -/
def Phase.rank (perDrain : ℕ) : Phase → ℕ
  | .done => 0
  | .top => 1
  | .batch rs => 1 + rs.length
  | .torn _ => 2 + perDrain
  | .reading _ => 3 + perDrain
  | .polling => 4 + perDrain

namespace Drain

variable {d : Drain}

lemma rank_release_le {buf : Bytes} (h : buf.length ≤ d.capacity) :
    (d.release buf).1.rank d.perDrain.toNat ≤ 1 + d.perDrain.toNat := by
  have hfits := fits_release h
  have hcases : (d.release buf).1 = .top ∨ ∃ rs, (d.release buf).1 = .batch rs := by
    unfold release
    split
    · exact .inl rfl
    · exact .inr ⟨_, rfl⟩
  obtain hq | ⟨rs, hq⟩ := hcases
  · rw [hq]
    exact Nat.le_add_right 1 _
  · rw [hq] at hfits ⊢
    exact Nat.add_le_add_left hfits.2.1 1

lemma rank_settle_le {buf : Bytes} (h : buf.length ≤ d.capacity) :
    (d.settle buf).1.rank d.perDrain.toNat ≤ 2 + d.perDrain.toNat := by
  unfold settle
  split
  · exact (rank_release_le h).trans (Nat.add_le_add_right one_le_two _)
  · exact le_rfl

/-- A step that is waited for comes nearer to the end, unless it finds the flag set or a read is
interrupted. -/
lemma rank_step_lt {p : Phase} (h : p.Fits d) {i : Input} (hawaits : p.awaits i)
    (hflag : i ≠ .flag true) (hread : i ≠ .read .interrupted) :
    (d.step p i).1.rank d.perDrain.toNat < p.rank d.perDrain.toNat := by
  cases p with
  | top =>
    cases i with
    | flag b =>
      cases b with
      | false => exact Nat.zero_lt_one
      | true => exact absurd rfl hflag
    | _ => cases hawaits
  | polling =>
    cases i with
    | polled fault =>
      cases fault with
      | none => exact Nat.add_lt_add_right (by decide) _
      | some e => exact (by omega : 1 < 4 + d.perDrain.toNat)
    | _ => cases hawaits
  | reading buf =>
    have hend : 2 + d.perDrain.toNat < 3 + d.perDrain.toNat := by omega
    cases i with
    | read result =>
      cases result with
      | data bs => exact (rank_settle_le (length_append_take_le h bs)).trans_lt hend
      | wouldBlock => exact (rank_settle_le h).trans_lt hend
      | interrupted => exact absurd rfl hread
      | failed e => exact (by omega : 1 < 3 + d.perDrain.toNat)
    | _ => cases hawaits
  | torn buf =>
    cases i with
    | flag b =>
      cases b with
      | false =>
        have hend : 1 + d.perDrain.toNat < 2 + d.perDrain.toNat := by omega
        exact (rank_release_le h).trans_lt hend
      | true => exact absurd rfl hflag
    | _ => cases hawaits
  | batch rs =>
    cases rs with
    | nil => exact absurd rfl h.1
    | cons r rs =>
      cases i with
      | next =>
        cases rs with
        | nil => exact Nat.lt_succ_self 1
        | cons s rs => exact Nat.add_lt_add_left (Nat.lt_succ_self _) 1
      | _ => cases hawaits
  | done => cases hawaits

end Drain

/-- How far it is from a stage to the end of the reader. -/
def Stage.rank (perDrain : ℕ) : Stage → ℕ
  | .gone => 0
  | .closing => 1
  | .unwinding => 2
  | .looping p => 2 + p.rank perDrain
  | .refused _ => 3
  | .acknowledged => 4
  | .acknowledging => 5
  | .initializing => 6
  | .pinning => 7

/-- How far a reader is from its end: six for each stage, as a step leaves at most five acts to
do. -/
def rank (r : Reader) : ℕ := 6 * r.stage.rank r.perDrain.toNat + r.todo.length

lemma length_acts_le (policy : Policy) (shape : Shape) (bs : Bytes) :
    (Dispatch.acts policy shape bs).length ≤ 5 := by
  have hroute : ∀ p : Payload, (Dispatch.route p).length ≤ 2 := by
    intro p
    unfold Dispatch.route
    split <;> simp
  have hending := Dispatch.ending policy shape bs
  generalize Dispatch.acts policy shape bs = as at hending
  cases hending with
  | missized | queried | filtered | undecodable => simp [Dispatch.refuse]
  | routed =>
    simp only [List.length_append, List.length_cons, List.length_nil]
    exact Nat.add_le_add_left (hroute _) 3

lemma length_deedActs_le (policy : Policy) (shape : Shape) (e : Deed) :
    (deedActs policy shape e).length ≤ 5 := by
  cases e with
  | fault | drained => simp [deedActs]
  | dispatch bs => exact length_acts_le policy shape bs

lemma length_deeds_le {d : Drain} {p q : Phase} {ds : List Deed} (h : d.Does p q ds)
    (policy : Policy) (shape : Shape) : (ds.flatMap (deedActs policy shape)).length ≤ 5 := by
  cases h with
  | nothing => exact Nat.zero_le _
  | fault | drained | dispatch =>
    rw [List.flatMap_singleton]
    exact length_deedActs_le policy shape _

variable {policy : Policy} {r : Reader} {n : News}

/-- A call that panics takes the reader no further from its end. -/
lemma Stage.rank_unwound_le {s : Stage} (h : s ≠ .gone) (m : ℕ) :
    (if s.canTell then Stage.unwinding else Stage.closing).rank m ≤ s.rank m := by
  cases s with
  | gone => exact absurd rfl h
  | looping p => exact (by omega : 1 ≤ 2 + p.rank m)
  | _ => simp [canTell, rank]

lemma rank_loop_lt {d : Drain} {p : Phase} (hfits : p.Fits d) {i : Input} (hawaits : p.awaits i)
    (hflag : i ≠ .flag true) (hread : i ≠ .read .interrupted) (policy : Policy) :
    6 * (2 + (d.step p i).1.rank d.perDrain.toNat) +
        ((d.step p i).2.flatMap (deedActs policy d.shape)).length <
      6 * (2 + p.rank d.perDrain.toNat) := by
  have hlt := Drain.rank_step_lt hfits hawaits hflag hread
  have hle := length_deeds_le (Drain.does_step hfits i) policy d.shape
  omega

lemma rank_move_lt {channel : Channel} {perDrain : UInt64} {pins panicked : Bool} {stage : Stage}
    (h : Tidy ⟨channel, perDrain, pins, stage, [], panicked⟩)
    (hawaits : awaits ⟨channel, perDrain, pins, stage, [], panicked⟩ n)
    (hflag : n ≠ .loop (.flag true)) (hread : n ≠ .loop (.read .interrupted)) :
    (step policy ⟨channel, perDrain, pins, stage, [], panicked⟩ n).1.rank <
      rank ⟨channel, perDrain, pins, stage, [], panicked⟩ := by
  cases stage with
  | gone => cases hawaits
  | pinning =>
    rcases n with (_ | e) | i | _ | _
    · cases pins
      · cases hawaits
      · simp [step, move, rank, Stage.rank]
    · cases pins
      · cases hawaits
      · simp [step, move, rank, Stage.rank]
    · cases hawaits
    · cases pins
      · simp [step, move, rank, Stage.rank]
      · cases hawaits
    · cases hawaits
  | initializing =>
    cases n with
    | go | panic => simp [step, move, rank, Stage.rank]
    | _ => cases hawaits
  | refused | acknowledging | unwinding | closing =>
    cases n with
    | go => simp [step, move, rank, Stage.rank]
    | _ => cases hawaits
  | acknowledged =>
    cases n with
    | go =>
      simp only [step, move]
      split <;> simp [rank, Stage.rank, Phase.rank]
    | _ => cases hawaits
  | looping p =>
    cases n with
    | loop i =>
      have hp : p.awaits i := by cases p <;> exact hawaits
      exact rank_loop_lt h.fits hp (fun hi => hflag (hi ▸ rfl)) (fun hi => hread (hi ▸ rfl)) policy
    | go =>
      cases p with
      | done => simp [step, move, rank, Stage.rank, Phase.rank]
      | _ => cases hawaits
    | _ => cases p <;> cases hawaits

/-- **A step that is waited for comes nearer to the end.** -/
lemma rank_step_lt (h : r.Tidy) (hawaits : r.awaits n) (hflag : n ≠ .loop (.flag true))
    (hread : n ≠ .loop (.read .interrupted)) : (r.step policy n).1.rank < r.rank := by
  obtain ⟨channel, perDrain, pins, stage, todo, panicked⟩ := r
  cases todo with
  | nil => exact rank_move_lt h hawaits hflag hread
  | cons a as =>
    -- what is left to do comes first, and is dropped when a call panics
    cases n with
    | go => exact Nat.lt_succ_self _
    | panic =>
      cases a with
      | call c =>
        have hstage : stage ≠ .gone := by
          rintro rfl
          cases hawaits
        have hle := Stage.rank_unwound_le hstage perDrain.toNat
        simp only [step, rank, List.length_nil, List.length_cons]
        omega
      | _ => cases stage <;> cases hawaits
    | _ => cases stage <;> cases a <;> cases hawaits

lemma step_interrupted (r : Reader) : (r.step policy (.loop (.read .interrupted))).1 = r := by
  obtain ⟨channel, perDrain, pins, stage, todo, panicked⟩ := r
  cases todo with
  | cons a as => cases a <;> rfl
  | nil =>
    cases stage with
    | looping p =>
      cases p with
      | batch rs => cases rs <;> rfl
      | _ => rfl
    | _ => rfl

lemma step_gone (hstage : r.stage = .gone) (hn : n ≠ .panic) :
    (r.step policy n).1.stage = .gone := by
  obtain ⟨channel, perDrain, pins, stage, todo, panicked⟩ := r
  obtain rfl : stage = .gone := hstage
  cases todo with
  | nil => cases n <;> rfl
  | cons a as => cases n <;> cases a <;> first | rfl | exact absurd rfl hn

/-- A reader after so many steps of an endless run. -/
def along (policy : Policy) (r : Reader) (f : ℕ → News) : ℕ → Reader
  | 0 => r
  | k + 1 => ((along policy r f k).step policy (f k)).1

lemma Tidy.along (h : r.Tidy) (f : ℕ → News) (k : ℕ) : (r.along policy f k).Tidy := by
  induction k with
  | zero => exact h
  | succ k ih => exact ih.step (f k)

/-- **A reader that does not find the flag set goes in the end**, if what it waits for comes and
reads are not interrupted for ever. -/
lemma exists_gone (h : r.Tidy) {f : ℕ → News} (hflag : ∀ k, f k ≠ .loop (.flag true))
    (hread : ∀ m, ∃ k ≥ m, f k ≠ .loop (.read .interrupted))
    (hawaits : ∀ k, (r.along policy f k).stage ≠ .gone → (r.along policy f k).awaits (f k)) :
    ∃ k, (r.along policy f k).stage = .gone := by
  by_contra hnever
  rw [not_exists] at hnever
  have hlt : ∀ k, f k ≠ .loop (.read .interrupted) →
      (r.along policy f (k + 1)).rank < (r.along policy f k).rank := fun k hk =>
    rank_step_lt (h.along f k) (hawaits k (hnever k)) (hflag k) hk
  have hanti : Antitone fun k => (r.along policy f k).rank := by
    refine antitone_nat_of_succ_le fun k => ?_
    by_cases hk : f k = .loop (.read .interrupted)
    · rw [along, hk, step_interrupted]
    · exact (hlt k hk).le
  -- so it comes as near to the end as one likes, and nearer
  have hfall : ∀ c, ∃ k, (r.along policy f k).rank + c ≤ r.rank := by
    intro c
    induction c with
    | zero => exact ⟨0, le_rfl⟩
    | succ c ih =>
      obtain ⟨m, hm⟩ := ih
      obtain ⟨k, hmk, hk⟩ := hread m
      have hle := hanti hmk
      have hnext := hlt k hk
      exact ⟨k + 1, by dsimp only at hle; omega⟩
  obtain ⟨k, hk⟩ := hfall (r.rank + 1)
  omega

/-! ### What is read and dispatched -/

def results (policy : Policy) (r : Reader) : List News → List ReadResult
  | [] => []
  | n :: ns => (r.result? n).toList ++ results policy (r.step policy n).1 ns

def deeds (r : Reader) (n : News) : List Deed :=
  (r.input? n).elim [] fun i => (r.drain.step r.phase i).2

/-- The records that are handed over for dispatch in a run. -/
def dispatches (policy : Policy) (r : Reader) : List News → List Bytes
  | [] => []
  | n :: ns => dispatched (r.deeds n) ++ dispatches policy (r.step policy n).1 ns

lemma Tidy.left_step (policy : Policy) (h : r.Tidy) (hflag : n ≠ .loop (.flag true)) :
    (r.result? n).toList.countP (· ≠ .interrupted) + (r.step policy n).1.phase.readsLeft ≤
        r.phase.readsLeft ∧
      (dispatched (r.deeds n)).length +
          (r.step policy n).1.phase.recordsLeft r.perDrain.toNat ≤
        r.phase.recordsLeft r.perDrain.toNat := by
  have hcount : ∀ o : Option ReadResult,
      o.toList.countP (· ≠ .interrupted) = (o.any (· ≠ .interrupted)).toNat := by
    rintro (_ | result)
    · rfl
    · by_cases hresult : result = .interrupted <;> simp [hresult]
  rw [hcount]
  unfold result? deeds
  have hgoes := r.goes policy n
  generalize (r.step policy n).1 = x, r.actOf? policy n = a, r.input? n = i at hgoes
  cases hgoes with
  | idle | act => exact ⟨(Nat.zero_add _).le, (Nat.zero_add _).le⟩
  | @loop p i todo stage =>
    have hphase : r.phase = p := phase_eq stage
    rw [hphase]
    exact Drain.left_step (hphase ▸ h.fits) fun hi => hflag (hi ▸ rfl)
  | panic todo stage => rcases stage with rfl | rfl <;> exact ⟨Nat.zero_le _, Nat.zero_le _⟩
  | move todo before after =>
    rw [after]
    exact ⟨Nat.zero_le _, Nat.zero_le _⟩

lemma Tidy.left_run (policy : Policy) (h : r.Tidy) {ns : List News}
    (hflag : .loop (.flag true) ∉ ns) :
    (r.results policy ns).countP (· ≠ .interrupted) ≤ r.phase.readsLeft ∧
      (r.dispatches policy ns).length ≤ r.phase.recordsLeft r.perDrain.toNat := by
  induction ns generalizing r with
  | nil => exact ⟨Nat.zero_le _, Nat.zero_le _⟩
  | cons n ns ih =>
    rw [List.mem_cons, not_or] at hflag
    obtain ⟨hreads, hrecords⟩ := h.left_step policy (Ne.symm hflag.1)
    have htidy : (r.step policy n).1.Tidy := h.step n
    obtain ⟨hreads', hrecords'⟩ := ih htidy hflag.2
    rw [(r.step_fixed n).2] at hrecords'
    rw [results, dispatches, List.countP_append, List.length_append]
    exact ⟨by omega, by omega⟩

/-! ### Drains that go on -/

def Input.brings : Input → Bool
  | .read (.data bs) => !bs.isEmpty
  | _ => false

namespace Drain

variable {d : Drain}

/-- A drain that has begun waits for each of some inputs, and has yet to return after them. -/
def GoesOn (d : Drain) (p : Phase) : List Input → Prop
  | [] => p.Draining
  | i :: is => p.Draining ∧ p.awaits i ∧ GoesOn d (d.step p i).1 is

lemma not_draining_release (d : Drain) (buf : Bytes) : ¬ (d.release buf).1.Draining := by
  unfold release
  split <;> exact id

/-- A drain that goes on after a read holds what it has held and what it has read. -/
lemma held_settle {buf : Bytes} (h : (d.settle buf).1.Draining) : (d.settle buf).1.held = buf := by
  unfold settle at h ⊢
  split
  · next haligned =>
    rw [if_pos haligned] at h
    exact absurd h (d.not_draining_release buf)
  · rfl

/-- What a drain holds while it goes on grows with each read that brings bytes. -/
lemma held_step {p : Phase} (hroom : p.HasRoom d) (hp : p.Draining) {i : Input}
    (hawaits : p.awaits i) (hq : (d.step p i).1.Draining) :
    i.brings.toNat + p.held.length ≤ (d.step p i).1.held.length := by
  cases p with
  | reading buf =>
    cases i with
    | read result =>
      cases result with
      | data bs =>
        -- there is room for one byte at least, so bytes that are brought are held
        have hlt : buf.length < d.capacity := hroom
        have hheld : (d.step (.reading buf) (.read (.data bs))).1.held = _ := held_settle hq
        rw [hheld]
        simp only [Phase.held, List.length_append, List.length_take, room, Input.brings]
        cases bs with
        | nil => simp
        | cons b bs => simp; omega
      | wouldBlock =>
        have hheld : (d.step (.reading buf) (.read .wouldBlock)).1.held = _ := held_settle hq
        rw [hheld]
        exact (Nat.zero_add _).le
      | interrupted => exact (Nat.zero_add _).le
      | failed e => exact hq.elim
    | _ => cases hawaits
  | torn buf =>
    cases i with
    | flag b =>
      cases b with
      | false => exact absurd hq (d.not_draining_release buf)
      | true => exact (Nat.zero_add _).le
    | _ => cases hawaits
  | _ => exact hp.elim

/-- **A drain that goes on has been brought bytes less often than its buffer has room for.** -/
lemma brings_lt (hpos : 0 < d.capacity) {p : Phase} (hroom : p.HasRoom d) {is : List Input}
    (h : d.GoesOn p is) : is.countP Input.brings + p.held.length < d.capacity := by
  -- the induction is on the inputs, each of which finds the drain in another phase
  induction is generalizing p with
  | nil =>
    rw [List.countP_nil, Nat.zero_add]
    cases p with
    | reading | torn => exact hroom
    | _ => exact (h : False).elim
  | cons i is ih =>
    obtain ⟨hp, hawaits, hrest⟩ := h
    have hq : (d.step p i).1.Draining := by cases is <;> [exact hrest; exact hrest.1]
    have hheld := held_step hroom hp hawaits hq
    have hlater := ih (hasRoom_step hpos hroom i) hrest
    have hcount : (i :: is).countP Input.brings = i.brings.toNat + is.countP Input.brings := by
      cases hi : i.brings <;> simp [hi, Nat.add_comm]
    omega

end Drain

/-- **Stopping a reader is bounded by one drain.** From any point of its life at which the running
flag is cleared for good, a reader completes at most one read and dispatches at most as many records
as are asked for at once. It goes in the end, whatever it then reads, if what it waits for comes and
reads are not interrupted for ever; and it waits for something until then. Also while the flag is
set, a drain has returned when it has been brought bytes as often as its buffer has room for. -/
theorem stops_within_one_drain (policy : Policy) (h : r.Fresh) (hpos : r.perDrain ≠ 0)
    (ns : List News) :
    let x := r.run policy ns
    (∀ ms : List News, .loop (.flag true) ∉ ms →
      (x.results policy ms).countP (· ≠ .interrupted) ≤ 1 ∧
        (x.dispatches policy ms).length ≤ r.perDrain.toNat) ∧
      (∀ f : ℕ → News, (∀ k, f k ≠ .loop (.flag true)) →
        (∀ m, ∃ k ≥ m, f k ≠ .loop (.read .interrupted)) →
        (∀ k, (x.along policy f k).stage ≠ .gone → (x.along policy f k).awaits (f k)) →
        ∃ k, (x.along policy f k).stage = .gone) ∧
      (x.stage ≠ .gone → ∃ n, n ≠ .loop (.flag true) ∧ x.awaits n) ∧
      ∀ is, x.drain.GoesOn (.reading []) is →
        is.countP Input.brings < r.perDrain.toNat * r.channel.shape.size := by
  intro x
  obtain ⟨hdrain, htidy, -⟩ := h.tidy_run policy ns
  refine ⟨fun ms hms => ?_, fun f hflag hread hawaits => exists_gone htidy hflag hread hawaits,
    exists_awaits, fun is his => ?_⟩
  · -- one read is left at any point, and the records of one drain
    obtain ⟨hreads, hrecords⟩ := htidy.left_run policy hms
    have hone : x.phase.readsLeft ≤ 1 := by cases x.phase <;> simp [Phase.readsLeft]
    have hmost : x.phase.recordsLeft x.perDrain.toNat ≤ x.perDrain.toNat :=
      Drain.recordsLeft_of_fits htidy.fits
    have hper : x.perDrain = r.perDrain := congrArg Drain.perDrain hdrain
    rw [hper] at hrecords hmost
    exact ⟨hreads.trans hone, hrecords.trans hmost⟩
  · -- a drain that goes on has been brought less than fills its buffer
    have hcapacity : 0 < x.drain.capacity := by
      rw [hdrain]
      exact Drain.capacity_pos hpos
    have hroom : Phase.HasRoom x.drain (.reading []) := hcapacity
    have hlt := Drain.brings_lt hcapacity hroom his
    rw [hdrain] at hlt
    rw [Nat.mul_comm]
    exact hlt

/-- A reader that polls when the flag is cleared: it is interrupted, reads a record and a part of
one, dispatches the record, and goes. -/
def lastSteps : List News :=
  [.loop (.polled none), .loop (.read .interrupted), .loop (.read (.data (List.replicate 356 1))),
    .loop (.flag false), .go, .loop .next, .go, .go, .go, .go, .go, .loop (.flag false), .go, .go]

theorem stops_within_one_drain_polling :
    let policy := Handler.ignore.policy
    let r : Reader := { channel := ⟨"short0", 0, .short⟩, perDrain := 2 }
    let x := r.run policy [.go, .go, .go, .go, .loop (.flag true)]
    let f (k : ℕ) : News := lastSteps.getD k .go
    x.stage = .looping .polling ∧
      (x.results policy lastSteps).countP (· ≠ .interrupted) ≤ 1 ∧
      (x.dispatches policy lastSteps).length ≤ 2 ∧
      ∃ k, (x.along policy f k).stage = .gone := by
  intro policy r x f
  have hfresh : r.Fresh := ⟨rfl, rfl⟩
  have hpos : r.perDrain ≠ 0 := by decide
  have hlate : ∀ k ≥ lastSteps.length, f k = .go := fun k hk => List.getD_eq_default _ _ hk
  have hflag : ∀ k, f k ≠ .loop (.flag true) := by
    intro k
    by_cases hk : k < lastSteps.length
    · have hall : ∀ i < lastSteps.length, lastSteps.getD i .go ≠ .loop (.flag true) := by
        decide +kernel
      exact hall k hk
    · rw [hlate k (not_lt.mp hk)]
      simp
  have hread : ∀ m, ∃ k ≥ m, f k ≠ .loop (.read .interrupted) := by
    intro m
    refine ⟨max m lastSteps.length, le_max_left _ _, ?_⟩
    rw [hlate _ (le_max_right _ _)]
    simp
  have hgone : ∀ k ≥ lastSteps.length, (x.along policy f k).stage = .gone := by
    intro k hk
    induction k, hk using Nat.le_induction with
    | base => decide +kernel
    | succ k hk ih =>
      rw [along, hlate k hk]
      exact step_gone ih (by simp)
  have hawaits : ∀ k, (x.along policy f k).stage ≠ .gone → (x.along policy f k).awaits (f k) := by
    intro k hstage
    by_cases hk : k < lastSteps.length
    · have hall : ∀ i < lastSteps.length, (x.along policy f i).awaits (f i) := by decide +kernel
      exact hall k hk
    · exact absurd (hgone k (not_lt.mp hk)) hstage
  obtain ⟨hbound, hleaves, -, -⟩ := stops_within_one_drain policy hfresh hpos
    [.go, .go, .go, .go, .loop (.flag true)]
  obtain ⟨hreads, hrecords⟩ := hbound lastSteps (by decide +kernel)
  exact ⟨by decide +kernel, hreads, hrecords, hleaves f hflag hread hawaits⟩

end ProvenanceRelay.Reader
