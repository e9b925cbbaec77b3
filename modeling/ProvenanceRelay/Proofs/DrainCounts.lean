import Mathlib
import ProvenanceRelay.Proofs.Batches
import ProvenanceRelay.Proofs.Interleaving

/-!
Drains and the records they count for.

A drain is counted before the first of its records is. So there are never more records than the
counted drains have room for, and every reader that is not inside a batch has counted at least one
record for each of its drains. A reader of a file counts a drain for each room that the whole
records of the file fill or begin.
-/

namespace ProvenanceRelay

/-! ### What is counted among acts -/

def recordTally (as : List Act) : ℕ := tally .shortRecords as + tally .longRecords as

@[simp] lemma recordTally_nil : recordTally [] = 0 := rfl

lemma recordTally_append (as bs : List Act) :
    recordTally (as ++ bs) = recordTally as + recordTally bs := by
  simp only [recordTally, tally_append]
  omega

/-- Neither a drain nor a record is counted. -/
def Clear (as : List Act) : Prop := tally .drains as = 0 ∧ recordTally as = 0

/-- Nothing of a batch is counted behind a call, so a call that panics keeps nothing of it from
being counted. -/
def CountsFirst : List Act → Prop
  | [] => True
  | .call _ :: as => Clear as
  | .count _ :: as | .bind _ _ :: as => CountsFirst as

lemma Clear.tail {a : Act} {as : List Act} (h : Clear (a :: as)) : Clear as := by
  rw [← List.singleton_append] at h
  obtain ⟨hdrains, hrecords⟩ := h
  rw [tally_append] at hdrains
  rw [recordTally_append] at hrecords
  exact ⟨by omega, by omega⟩

lemma Clear.countsFirst {as : List Act} (h : Clear as) : CountsFirst as := by
  induction as with
  | nil => trivial
  | cons a as ih =>
    cases a with
    | call c => exact h.tail
    | _ => exact ih h.tail

lemma CountsFirst.tail {a : Act} {as : List Act} (h : CountsFirst (a :: as)) : CountsFirst as := by
  cases a with
  | call c => exact Clear.countsFirst h
  | _ => exact h

namespace Dispatch

/-- A whole record is counted first, and then the handler is called. -/
lemma acts_of_size_eq (policy : Policy) {shape : Shape} {bs : Bytes}
    (h : bs.length = shape.size) :
    ∃ c as, acts policy shape bs = .count (recordCounter shape) :: .call c :: as ∧ Clear as := by
  have hending := ending policy shape bs
  generalize acts policy shape bs = as at hending
  cases hending with
  | missized size => exact absurd h size
  | queried => exact ⟨_, _, rfl, rfl, rfl⟩
  | filtered => exact ⟨_, _, rfl, rfl, rfl⟩
  | undecodable => exact ⟨_, _, rfl, rfl, rfl⟩
  | routed =>
    refine ⟨_, _, rfl, ?_⟩
    simp [Clear, recordTally]

end Dispatch

namespace Reader

variable {policy : Policy} {r : Reader} {n : News}

/-! ### Drains and records of a reader -/

/-- A reader is inside a batch from the end of the drain until the last record is counted. -/
def InBatch (r : Reader) : Prop := (∃ rs, r.stage = .looping (.batch rs)) ∨ recordTally r.todo ≠ 0

/-- What has been counted, what is left to do and what is yet to be dispatched go together, if so
many records are asked for at once. -/
structure Counted (perDrain : ℕ) (queue : List Bytes) (todo : List Act) (drains recs : ℕ) :
    Prop where
  most : recs + recordTally todo + queue.length ≤ perDrain * (drains + tally .drains todo)
  /-- A drain is counted before its records. -/
  early : tally .drains todo ≠ 0 → recs + recordTally todo ≤ perDrain * drains
  least : drains + tally .drains todo ≤ recs + recordTally todo + 1
  closed : queue = [] ∨ calls todo ≠ [] → drains + tally .drains todo ≤ recs + recordTally todo
  order : CountsFirst todo

namespace Counted

variable {m drains recs : ℕ} {queue rest : List Bytes} {todo as : List Act} {a : Act}

lemma recs_le (h : Counted m queue todo drains recs) : recs ≤ m * drains := by
  have hmost := h.most
  by_cases hdue : tally .drains todo = 0
  · rw [hdue, Nat.add_zero] at hmost
    omega
  · have hearly := h.early hdue
    omega

lemma act (h : Counted m queue (a :: as) drains recs) :
    Counted m queue as (drains + tally .drains [a]) (recs + recordTally [a]) := by
  obtain ⟨hmost, hearly, hleast, hclosed, horder⟩ := h
  have hdrains : tally .drains (a :: as) = tally .drains [a] + tally .drains as := by
    rw [← tally_append, List.singleton_append]
  have hrecs : recordTally (a :: as) = recordTally [a] + recordTally as := by
    rw [← recordTally_append, List.singleton_append]
  have hcalls : calls as ≠ [] → calls (a :: as) ≠ [] := by cases a <;> simp
  rw [hdrains, hrecs] at hmost hearly hleast hclosed
  refine ⟨?_, fun hdue => ?_, by omega, fun hout => ?_, horder.tail⟩
  · rw [Nat.add_assoc drains]
    omega
  · calc recs + recordTally [a] + recordTally as
        ≤ m * drains := by have := hearly (by omega); omega
      _ ≤ m * (drains + tally .drains [a]) := Nat.mul_le_mul_left m (Nat.le_add_right _ _)
  · have := hclosed (hout.imp id hcalls)
    omega

/-- A call that panics drops what is left to do, and the reader leaves its loop. -/
lemma panic {c : Call} (h : Counted m queue (.call c :: as) drains recs) :
    Counted m [] [] drains recs := by
  have hle := h.recs_le
  have hclosed := h.closed (.inr (by simp))
  obtain ⟨hdrains, hrecs⟩ : Clear as := h.order
  have hnone : recordTally (.call c :: as) = recordTally as := rfl
  rw [tally_call, hdrains, hnone, hrecs] at hclosed
  exact ⟨by simpa using hle, fun _ => hle, by simp; omega, fun _ => hclosed, trivial⟩

/-- Outside a batch, a reader takes up acts in which nothing of one is counted. -/
lemma clear (h : Counted m [] [] drains recs) (hclear : Clear as) :
    Counted m [] as drains recs := by
  have hle := h.recs_le
  have hclosed : drains ≤ recs := h.closed (.inl rfl)
  obtain ⟨hdrains, hrecs⟩ := id hclear
  refine ⟨?_, fun _ => ?_, ?_, fun _ => ?_, hclear.countsFirst⟩
  · simpa [hdrains, hrecs] using hle
  · simpa [hrecs] using hle
  · omega
  · omega

/-- A drain ends with some records. -/
lemma drained (h : Counted m [] [] drains recs) (hne : rest ≠ []) (hlength : rest.length ≤ m) :
    Counted m rest [.count .drains] drains recs := by
  have hle := h.recs_le
  have hclosed : drains ≤ recs := h.closed (.inl rfl)
  have hone : tally .drains [.count .drains] = 1 := rfl
  have hnone : recordTally [.count .drains] = 0 := rfl
  refine ⟨?_, fun _ => hle, ?_, fun hout => ?_, trivial⟩
  · rw [hone, hnone, Nat.mul_add]
    omega
  · omega
  · exact (hout.elim hne fun hcalls => hcalls rfl).elim

/-- A record of a batch is taken up. -/
lemma dispatch {bs : Bytes} {shape : Shape} {c : Call} (h : Counted m (bs :: rest) [] drains recs)
    (hclear : Clear as) :
    Counted m rest (.count (Dispatch.recordCounter shape) :: .call c :: as) drains recs := by
  obtain ⟨hmost, -, hleast, -, -⟩ := h
  obtain ⟨hdrains, hrecs⟩ := id hclear
  have hone : recordTally (.count (Dispatch.recordCounter shape) :: .call c :: as) = 1 := by
    rw [recordTally] at hrecs
    cases shape <;> simp [recordTally, Dispatch.recordCounter] <;> omega
  have hnone : tally .drains (.count (Dispatch.recordCounter shape) :: .call c :: as) = 0 := by
    cases shape <;> simpa [Dispatch.recordCounter] using hdrains
  simp only [recordTally_nil, tally_nil, List.length_cons] at hmost hleast
  refine ⟨?_, fun hdue => absurd hnone hdue, ?_, fun _ => ?_, hclear⟩
  · rw [hone, hnone]
    omega
  · omega
  · omega

end Counted

/-- What a reader has counted so far goes together with what it is about to do. -/
def Counts (r : Reader) (drains recs : ℕ) : Prop :=
  Counted r.perDrain.toNat r.phase.queue r.todo drains recs

variable {drains recs : ℕ}

lemma Counts.drains_le (h : r.Counts drains recs) (hout : ¬ r.InBatch) : drains ≤ recs := by
  obtain ⟨hstage, hdue⟩ : (∀ rs, r.stage ≠ .looping (.batch rs)) ∧ recordTally r.todo = 0 := by
    simpa [InBatch] using hout
  have hqueue : r.phase.queue = [] := by
    unfold phase
    split
    · next p hp =>
      cases p with
      | batch rs => exact absurd hp (hstage rs)
      | _ => rfl
    · rfl
  have hclosed := Counted.closed h (.inl hqueue)
  omega

lemma Fresh.counts (h : r.Fresh) : r.Counts 0 0 := by
  rw [Counts, h.phase_eq, h.todo]
  exact ⟨Nat.zero_le _, fun _ => Nat.zero_le _, Nat.zero_le _, fun _ => le_rfl, trivial⟩

lemma Counted.loop {d : Drain} {p q : Phase} {ds : List Deed}
    (h : Counted d.perDrain.toNat p.queue [] drains recs) (hdoes : d.Does p q ds)
    (hq : q.Fits d) :
    Counted d.perDrain.toNat q.queue (ds.flatMap (deedActs policy d.shape)) drains recs := by
  cases hdoes with
  | nothing queue =>
    rw [queue]
    exact h
  | fault message queue =>
    rw [queue] at h
    exact h.clear ⟨rfl, rfl⟩
  | drained queue =>
    rw [queue] at h
    exact h.drained hq.1 hq.2.1
  | dispatch size queue outside =>
    obtain ⟨c, as, hacts, hclear⟩ := Dispatch.acts_of_size_eq policy size
    rw [queue, List.flatMap_singleton, deedActs, hacts]
    exact h.dispatch hclear

/-- **Counts and what is left to do go together after every step.** -/
lemma Counts.step (h : r.Counts drains recs) (htidy : r.Tidy) (n : News) :
    (r.step policy n).1.Counts (drains + tally .drains (r.actOf? policy n).toList)
      (recs + recordTally (r.actOf? policy n).toList) := by
  have htidy' : (r.step policy n).1.Tidy := htidy.step n
  have hfits := htidy'.fits
  rw [r.drain_step] at hfits
  have hgoes := r.goes policy n
  generalize (r.step policy n).1 = x, r.actOf? policy n = a, r.input? n = input at hgoes hfits
  cases hgoes with
  | idle => exact h
  | @loop p i todo stage =>
    have hphase : r.phase = p := phase_eq stage
    rw [Counts, hphase, todo] at h
    exact Counted.loop h (Drain.does_step (hphase ▸ htidy.fits) i) hfits
  | act todo =>
    rw [Counts, todo] at h
    exact h.act
  | panic todo stage =>
    rw [Counts, todo] at h
    rcases stage with rfl | rfl <;> exact h.panic
  | move todo before after drain left init =>
    have hqueue : r.phase.queue = [] := by rcases before with hp | hp <;> rw [hp] <;> rfl
    have hper : x.perDrain = r.perDrain := congrArg Drain.perDrain drain
    have hleft : Clear x.todo := by
      rcases left with hx | ⟨m, hx⟩ <;> rw [hx] <;> exact ⟨rfl, rfl⟩
    have hinit : Clear a.toList := by rcases init with rfl | rfl <;> exact ⟨rfl, rfl⟩
    rw [Counts, hqueue, todo] at h
    rw [hinit.1, hinit.2, Counts, after, hper]
    exact h.clear hleft

lemma Counts.run (h : r.Counts drains recs) (htidy : r.Tidy) (ns : List News) :
    (r.run policy ns).Counts (drains + tally .drains (r.acts policy ns))
      (recs + recordTally (r.acts policy ns)) := by
  induction ns generalizing r drains recs with
  | nil => exact h
  | cons n ns ih =>
    rw [acts, tally_append, recordTally_append, ← Nat.add_assoc, ← Nat.add_assoc]
    exact ih (h.step htidy n) (htidy.step n)

lemma Fresh.counts_run (h : r.Fresh) (ns : List News) :
    (r.run policy ns).Counts (tally .drains (r.acts policy ns))
      (recordTally (r.acts policy ns)) := by
  have hcounts : (r.run policy ns).Counts (0 + _) (0 + _) := h.counts.run h.tidy ns
  rwa [Nat.zero_add, Nat.zero_add] at hcounts

/-! ### Files -/

namespace Drain

variable {d : Drain} {taken batches : ℕ} {rest : Bytes}

/-- So many bytes of a file have been taken in so many batches, and the rest of it is left. Unless
it has been read to its end, every batch has filled the room for it. -/
def Rounded (d : Drain) (taken : ℕ) (rest : Bytes) (batches : ℕ) : Prop :=
  taken = batches * d.capacity ∨
    rest = [] ∧ batches = taken / d.shape.size ⌈/⌉ d.perDrain.toNat

/-- The whole records of some full batches and some bytes more. -/
lemma div_size (d : Drain) (batches n : ℕ) :
    (batches * d.capacity + n) / d.shape.size = d.perDrain.toNat * batches + n / d.shape.size := by
  rw [capacity, Nat.mul_comm batches, Nat.mul_assoc, Nat.mul_add_div d.shape.size_pos]

/-- Some full batches and at most one batch more. -/
lemma ceilDiv_add {m n : ℕ} (hm : 0 < m) (hn : n ≤ m) (batches : ℕ) :
    (m * batches + n) ⌈/⌉ m = batches + if n = 0 then 0 else 1 := by
  rw [Nat.ceilDiv_eq_add_pred_div, Nat.add_assoc, Nat.add_sub_assoc (by omega),
    Nat.mul_add_div hm]
  split
  · rw [Nat.div_eq_of_lt (by omega)]
  · have hone : (n + m - 1) / m = 1 := Nat.div_eq_of_lt_le (by omega) (by omega)
    rw [hone]

lemma Rounded.eq_ceilDiv (h : d.Rounded taken rest batches) (hpos : d.perDrain ≠ 0) :
    batches = taken / d.shape.size ⌈/⌉ d.perDrain.toNat := by
  obtain htaken | ⟨-, hbatches⟩ := h
  · have hdiv := d.div_size batches 0
    rw [Nat.add_zero] at hdiv
    have hceil := ceilDiv_add (perDrain_pos hpos) (Nat.zero_le _) batches
    rw [htaken, hdiv, Nat.zero_div, hceil, if_pos rfl, Nat.add_zero]
  · exact hbatches

end Drain

/-- How far a reader of a file has come in its loop. -/
def Phase.OnFile (d : Drain) (taken : ℕ) (rest : Bytes) (batches : ℕ) : Phase → Prop
  | .reading buf | .torn buf =>
    taken = batches * d.capacity + buf.length ∧ (buf ≠ [] → rest = []) ∨
      buf = [] ∧ d.Rounded taken rest batches
  | _ => d.Rounded taken rest batches

namespace Drain

variable {d : Drain} {taken batches : ℕ} {rest : Bytes}

lemma onFile_release (hpos : d.perDrain ≠ 0) {buf : Bytes} (hbuf : buf.length ≤ d.capacity)
    (htaken : taken = batches * d.capacity + buf.length)
    (hrest : buf ≠ [] → buf.length < d.capacity → rest = []) :
    (d.release buf).1.OnFile d taken rest (batches + (d.release buf).2.count .drained) := by
  have hm : 0 < d.perDrain.toNat := perDrain_pos hpos
  have hlength := length_records d.shape.size_pos buf
  have hle : buf.length / d.shape.size ≤ d.perDrain.toNat := Nat.div_le_of_le_mul hbuf
  have hceil : taken / d.shape.size ⌈/⌉ d.perDrain.toNat =
      batches + if buf.length / d.shape.size = 0 then 0 else 1 := by
    rw [htaken, d.div_size, ceilDiv_add hm hle]
  rw [← hlength] at hceil
  unfold release
  split
  · -- no whole record has been read
    next hnone =>
    rw [hnone, List.length_nil, if_pos rfl] at hceil
    by_cases hne : buf = []
    · exact .inl (by simpa [hne] using htaken)
    · have hlt : buf.length < d.shape.size := by
        rw [hnone, List.length_nil, eq_comm, Nat.div_eq_zero_iff] at hlength
        exact hlength.resolve_left d.shape.size_pos.ne'
      have hsize : d.shape.size ≤ d.capacity := Nat.le_mul_of_pos_right _ hm
      exact .inr ⟨hrest hne (by omega), hceil.symm⟩
  · -- there is a batch, which counts as a drain
    next rs hrs =>
    have hone : List.count Deed.drained [.drained] = 1 := rfl
    have hsome : (records d.shape.size buf).length ≠ 0 := mt List.length_eq_zero_iff.mp hrs
    rw [if_neg hsome] at hceil
    rw [hone]
    by_cases hfull : buf.length = d.capacity
    · -- the buffer is full, and the file may go on
      refine .inl ?_
      rw [htaken, hfull, Nat.succ_mul]
    · -- the buffer is not full, so the file has come to its end
      have hne : buf ≠ [] := by
        rintro rfl
        rw [hlength, List.length_nil, Nat.zero_div] at hsome
        exact hsome rfl
      exact .inr ⟨hrest hne (by omega), hceil.symm⟩

lemma onFile_settle (hpos : d.perDrain ≠ 0) {buf : Bytes} (hbuf : buf.length ≤ d.capacity)
    (htaken : taken = batches * d.capacity + buf.length)
    (hrest : buf ≠ [] → buf.length < d.capacity → rest = []) :
    (d.settle buf).1.OnFile d taken rest (batches + (d.settle buf).2.count .drained) := by
  unfold settle
  split
  · exact onFile_release hpos hbuf htaken hrest
  · next htorn => exact .inl ⟨htaken, fun hne => hrest hne (lt_capacity_of_torn hbuf htorn)⟩

lemma release_nil (d : Drain) : d.release [] = (.top, []) := by
  rw [release, records_of_length_lt d.shape.size_pos]

/-- **A step of the loop over a file** adds a batch where the whole records of it begin one. -/
lemma onFile_step (hpos : d.perDrain ≠ 0) {p : Phase} (h : p.OnFile d taken rest batches)
    (hfits : p.Fits d) {i : Input}
    (hread : ∀ buf result, p = .reading buf → i = .read result → result ≠ .interrupted →
      result = .data (rest.take (d.room buf))) :
    (d.step p i).1.OnFile d (taken + (d.taken p i).length) (rest.drop (d.taken p i).length)
      (batches + (d.step p i).2.count .drained) := by
  have hmove := d.move p i
  generalize (d.step p i).1 = q, (d.step p i).2 = ds, d.taken p i = bs at hmove
  cases hmove with
  | idle | start | stop | pollFault | resume | exhaust => exact h
  | ready => exact .inr ⟨rfl, h⟩
  | readFault buf e => exact absurd (hread buf _ rfl rfl (by simp)) (by simp)
  | block buf => exact absurd (hread buf _ rfl rfl (by simp)) (by simp)
  | dispatch r rs =>
    cases rs <;> exact h
  | get buf bs =>
    obtain rfl : bs = rest.take (d.room buf) := by simpa using hread buf _ rfl rfl (by simp)
    have hfull : buf.length ≤ d.capacity := hfits
    obtain htaken | ⟨rfl, rfl, hend⟩ :
        taken = batches * d.capacity + buf.length ∨ buf = [] ∧ rest = [] ∧ _ := by
      obtain ⟨htaken, -⟩ | ⟨rfl, htaken | hend⟩ := h
      · exact .inl htaken
      · exact .inl htaken
      · exact .inr ⟨rfl, hend⟩
    · -- the read fills the room, as far as the file goes
      refine onFile_settle hpos (length_append_take_le hfull _) ?_ fun _ hlt => ?_
      · rw [htaken, List.length_append, Nat.add_assoc]
      · simp only [List.length_append, List.length_take, room] at hlt
        rw [List.drop_eq_nil_iff]
        simp only [List.length_take, room]
        omega
    · -- nothing more comes of a file that has been read
      have hsettle : d.settle [] = (.top, []) := by
        simp [settle, release_nil]
      rw [List.take_nil, List.take_nil, List.append_nil, hsettle]
      exact .inr ⟨rfl, hend⟩
  | abandon buf =>
    obtain ⟨htaken, hrest⟩ | ⟨rfl, hrounded⟩ := h
    · exact onFile_release hpos hfits htaken fun hne _ => hrest hne
    · rw [release_nil]
      exact hrounded

end Drain

lemma tally_drains_deeds (policy : Policy) {d : Drain} {p q : Phase} {ds : List Deed}
    (h : d.Does p q ds) :
    tally .drains (ds.flatMap (deedActs policy d.shape)) = ds.count .drained := by
  cases h with
  | nothing | fault | drained => rfl
  | dispatch size =>
    obtain ⟨c, as, hacts, hclear⟩ := Dispatch.acts_of_size_eq policy size
    rw [List.flatMap_singleton, deedActs, hacts, tally_count, tally_call, hclear.1]
    cases d.shape <;> rfl

/-- How far a reader of a file has come, if it has counted so many drains. -/
def OnFile (r : Reader) (taken : ℕ) (rest : Bytes) (drains : ℕ) : Prop :=
  r.phase.OnFile r.drain taken rest (drains + tally .drains r.todo)

/-- What a read gives in a step comes from a file with that rest: it fills the room, as far as the
file goes. -/
def ReadsNext (r : Reader) (rest : Bytes) (n : News) : Prop :=
  ∀ result ∈ r.result? n, result ≠ .interrupted →
    result = .data (rest.take (r.drain.room r.phase.held))

instance (r : Reader) (rest : Bytes) (n : News) : Decidable (r.ReadsNext rest n) :=
  inferInstanceAs (Decidable (∀ result ∈ r.result? n, _))

def ReadsFile (policy : Policy) (r : Reader) (rest : Bytes) : List News → Prop
  | [] => True
  | n :: ns => r.ReadsNext rest n ∧
      ReadsFile policy (r.step policy n).1 (rest.drop (r.taken n).length) ns

instance decidableReadsFile (policy : Policy) :
    (r : Reader) → (rest : Bytes) → (ns : List News) → Decidable (r.ReadsFile policy rest ns)
  | _, _, [] => inferInstanceAs (Decidable True)
  | r, rest, n :: ns =>
    have := decidableReadsFile policy (r.step policy n).1 (rest.drop (r.taken n).length) ns
    inferInstanceAs (Decidable (_ ∧ _))

variable {taken : ℕ} {rest : Bytes}

lemma OnFile.step (h : r.OnFile taken rest drains) (hcounts : r.Counts drains recs)
    (htidy : r.Tidy) (hpos : r.perDrain ≠ 0) (hread : r.ReadsNext rest n) :
    (r.step policy n).1.OnFile (taken + (r.taken n).length) (rest.drop (r.taken n).length)
      (drains + tally .drains (r.actOf? policy n).toList) := by
  rw [r.taken_eq]
  have hgoes := r.goes policy n
  generalize (r.step policy n).1 = x, r.actOf? policy n = a, r.input? n = input at hgoes
  cases hgoes with
  | idle => exact h
  | @loop p i todo stage =>
    have hphase : r.phase = p := phase_eq stage
    have hdoes := Drain.does_step (hphase ▸ htidy.fits) i
    rw [OnFile, hphase, todo] at h
    rw [hphase]
    have hread : ∀ buf result, p = .reading buf → i = .read result → result ≠ .interrupted →
        result = .data (rest.take (r.drain.room buf)) := by
      rintro buf result rfl rfl hresult
      rw [ReadsNext, Reader.result?, hphase, input?_eq_some todo stage] at hread
      exact hread result rfl hresult
    have hstep := Drain.onFile_step hpos h (hphase ▸ htidy.fits) hread
    rw [← tally_drains_deeds policy hdoes] at hstep
    exact hstep
  | @act a as todo =>
    rw [OnFile, todo, ← List.singleton_append, tally_append, ← Nat.add_assoc] at h
    exact h
  | @panic c as s todo stage =>
    rw [Counts, todo] at hcounts
    obtain ⟨hclear, -⟩ : Clear as := hcounts.order
    rw [OnFile, todo, tally_call, hclear] at h
    -- a reader in a drain has nothing left to do
    have hout : ¬ r.phase.Draining := fun hp => by simp [htidy.idle hp] at todo
    have hrounded : r.drain.Rounded taken rest drains := by
      generalize r.phase = p at h hout
      cases p with
      | reading | torn => exact absurd trivial hout
      | _ => exact h
    rcases stage with rfl | rfl <;> exact hrounded
  | move todo before after drain left init =>
    have hrounded : r.drain.Rounded taken rest drains := by
      rw [OnFile, todo] at h
      rcases before with hp | hp <;> rw [hp] at h <;> exact h
    have hleft : tally .drains x.todo = 0 := by
      rcases left with hx | ⟨m, hx⟩ <;> rw [hx] <;> rfl
    have hinit : tally .drains a.toList = 0 := by rcases init with rfl | rfl <;> rfl
    rw [hinit, OnFile, after, drain, hleft]
    exact hrounded

lemma OnFile.run (h : r.OnFile taken rest drains) (hcounts : r.Counts drains recs)
    (htidy : r.Tidy) (hpos : r.perDrain ≠ 0) {ns : List News}
    (hread : r.ReadsFile policy rest ns) :
    (r.run policy ns).OnFile (taken + (r.consumed policy ns).length)
      (rest.drop (r.consumed policy ns).length) (drains + tally .drains (r.acts policy ns)) := by
  induction ns generalizing r taken rest drains recs with
  | nil => exact h
  | cons n ns ih =>
    obtain ⟨hnow, hlater⟩ := hread
    have hpos' : (r.step policy n).1.perDrain ≠ 0 := (r.step_fixed n).2 ▸ hpos
    rw [consumed, acts, List.length_append, tally_append, ← Nat.add_assoc, ← Nat.add_assoc,
      ← List.drop_drop]
    exact ih (h.step hcounts htidy hpos hnow) (hcounts.step htidy n) (htidy.step n) hpos' hlater

/-- A reader that has read a file to its end, and has gone, has counted a drain for each room that
the whole records of the file fill or begin. -/
lemma Fresh.drains_of_file (h : r.Fresh) (hpos : r.perDrain ≠ 0) {ns : List News}
    {content : Bytes} (hread : r.ReadsFile policy content ns)
    (hall : r.consumed policy ns = content) (hgone : (r.run policy ns).stage = .gone) :
    tally .drains (r.acts policy ns) =
      content.length / r.channel.shape.size ⌈/⌉ r.perDrain.toNat := by
  have hstart : r.OnFile 0 content 0 := by
    rw [OnFile, h.phase_eq, h.todo]
    exact .inl (Nat.zero_mul _).symm
  have hend := hstart.run h.counts h.tidy hpos hread
  obtain ⟨hdrain, -, ms, hbegun⟩ := h.tidy_run policy ns
  have htodo : (r.run policy ns).todo = [] := by
    rw [Begun, hgone] at hbegun
    exact hbegun.1
  have hlast : (r.run policy ns).phase = .top := by rw [phase, hgone]
  rw [OnFile, hlast, htodo, hdrain, hall] at hend
  have hceil := Drain.Rounded.eq_ceilDiv hend hpos
  rwa [Nat.zero_add, Nat.zero_add, tally_nil, Nat.add_zero] at hceil

end Reader

namespace Relay

open Reader

variable {σ : Type}

variable {r : Relay σ}

lemma get_stats_run (hstats : r.dispatcher.stats = {}) (es : List Event) (c : Counter) :
    (r.run es).dispatcher.stats.get c = ∑ i ∈ Finset.range r.readers.length,
      tally c (actsOf r.dispatcher.handler.policy (turnsOf i (r.turns es))) := by
  rw [dispatcher_run, Dispatcher.stats_run, hstats, Stats.get_init, Nat.zero_add,
    tally_actsOf _ c (r.number_lt es)]

lemma counts_of_turns (hfresh : ∀ x ∈ r.readers, x.Fresh) (es : List Event) {i : ℕ}
    (hi : i < r.readers.length) :
    let as := actsOf r.dispatcher.handler.policy (turnsOf i (r.turns es))
    ∃ y ∈ (r.run es).readers, y.perDrain = r.readers[i].perDrain ∧
      y.Counts (tally .drains as) (recordTally as) := by
  intro as
  obtain ⟨hrun, hacts, -⟩ := r.reader_run es (List.getElem?_eq_getElem hi)
  have hx : r.readers[i].Fresh := hfresh _ (List.getElem_mem hi)
  refine ⟨_, List.mem_of_getElem? hrun, congrArg Drain.perDrain (hx.tidy_run _ _).1, ?_⟩
  show Counts _ (tally .drains (actsOf _ _)) (recordTally (actsOf _ _))
  rw [hacts]
  exact hx.counts_run _

/-- **Drains bound records.** Whatever order the readers of a relay go on in, and whatever they
learn: there are never more records than the counted drains ask for, and no fewer records than
drains when no reader is inside a batch. A reader that has read a file to its end, and has gone, has
counted a drain for each batch of its whole records, and the drains of the readers add up. -/
theorem drains_bound_records {perDrain : UInt64} (hpos : perDrain ≠ 0)
    (hreaders : ∀ x ∈ r.readers, x.Fresh ∧ x.perDrain = perDrain)
    (hstats : r.dispatcher.stats = {}) (es : List Event) :
    let policy := r.dispatcher.handler.policy
    let stats := (r.run es).dispatcher.stats
    let drainsOf (i : ℕ) := tally .drains (actsOf policy (turnsOf i (r.turns es)))
    stats.shortRecords + stats.longRecords ≤ perDrain.toNat * stats.drains ∧
      ((∀ x ∈ (r.run es).readers, ¬ x.InBatch) →
        stats.drains ≤ stats.shortRecords + stats.longRecords) ∧
      stats.drains = ∑ i ∈ Finset.range r.readers.length, drainsOf i ∧
      ∀ i x k tail content, r.readers[i]? = some x →
        x.ReadsFile policy content ((turnsOf i (r.turns es)).map Turn.news) →
        content.length = k * x.channel.shape.size + tail → tail < x.channel.shape.size →
        takenOf (turnsOf i (r.turns es)) = content →
        (∀ y, (r.run es).readers[i]? = some y → y.stage = .gone) →
        drainsOf i = k ⌈/⌉ perDrain.toNat := by
  intro policy stats drainsOf
  have hfresh : ∀ x ∈ r.readers, x.Fresh := fun x hx => (hreaders x hx).1
  let recordsOf (i : ℕ) := recordTally (actsOf policy (turnsOf i (r.turns es)))
  have hdrains : stats.drains = ∑ i ∈ Finset.range r.readers.length, drainsOf i :=
    get_stats_run hstats es .drains
  have hrecords : stats.shortRecords + stats.longRecords =
      ∑ i ∈ Finset.range r.readers.length, recordsOf i := by
    have hshort : stats.shortRecords = _ := get_stats_run hstats es .shortRecords
    have hlong : stats.longRecords = _ := get_stats_run hstats es .longRecords
    rw [hshort, hlong, ← Finset.sum_add_distrib]
    rfl
  refine ⟨?_, fun hout => ?_, hdrains, ?_⟩
  · -- no reader has more records than its drains ask for
    rw [hrecords, hdrains, Finset.mul_sum]
    refine Finset.sum_le_sum fun i hi => ?_
    obtain ⟨y, -, hper, hy⟩ := counts_of_turns hfresh es (Finset.mem_range.mp hi)
    rw [(hreaders _ (List.getElem_mem _)).2] at hper
    exact hper ▸ hy.recs_le
  · -- outside its batches, a reader has a record for each drain
    rw [hrecords, hdrains]
    refine Finset.sum_le_sum fun i hi => ?_
    obtain ⟨y, hmem, -, hy⟩ := counts_of_turns hfresh es (Finset.mem_range.mp hi)
    exact hy.drains_le (hout y hmem)
  · -- a reader of a file comes to the number of its batches
    intro i x k tail content hx hread hlength htail hall hgone
    obtain ⟨hrun, hacts, htaken⟩ := r.reader_run es hx
    obtain ⟨hx', rfl⟩ := hreaders x (List.mem_of_getElem? hx)
    have hk : content.length / x.channel.shape.size = k := by
      rw [hlength, Nat.mul_comm, Nat.mul_add_div x.channel.shape.size_pos,
        Nat.div_eq_of_lt htail, Nat.add_zero]
    show tally .drains (actsOf policy (turnsOf i (r.turns es))) = _
    rw [hacts, hx'.drains_of_file hpos hread (htaken.symm.trans hall) (hgone _ hrun), hk]

def twoPerDrain : Relay Unit :=
  { oneCpuRelay with
    readers := [{ channel := ⟨"short0", 0, .short⟩, perDrain := 2 },
      { channel := ⟨"long0", 0, .long⟩, perDrain := 2 }] }

/-- The first reader reads a file of three records and a part of one, and the relay is stopped. -/
def threeRecords : List Event :=
  [.main, .main, .main, .take 0, .take 1,
    .reader 0 .go, .reader 0 .go, .reader 0 .go, .reader 0 .go,
    .reader 1 .go, .reader 1 .go, .reader 1 .go, .reader 1 .go, .main, .main, .main, .main,
    .reader 0 (.loop (.flag true)), .reader 0 (.loop (.polled none)),
    .reader 0 (.loop (.read (.data (List.replicate 512 0)))), .reader 0 .go,
    .reader 0 (.loop .next),
    .reader 0 .go, .reader 0 .go, .reader 0 .go, .reader 0 .go, .reader 0 .go,
    .reader 0 (.loop .next),
    .reader 0 .go, .reader 0 .go, .reader 0 .go, .reader 0 .go, .reader 0 .go,
    .reader 0 (.loop (.flag true)), .reader 0 (.loop (.polled none)),
    .reader 0 (.loop (.read (.data (List.replicate 260 0)))), .reader 0 (.loop (.flag true)),
    .reader 0 (.loop (.read .interrupted)), .reader 0 (.loop (.read (.data []))), .stop,
    .reader 0 (.loop (.flag true)), .reader 0 .go, .reader 0 (.loop .next), .reader 0 .go,
    .reader 0 .go, .reader 0 .go, .reader 0 .go, .reader 0 .go, .reader 0 (.loop (.flag true)),
    .reader 0 .go, .reader 0 .go, .reader 1 (.loop (.flag true)), .reader 1 .go, .reader 1 .go]

theorem drains_bound_records_three :
    let s := twoPerDrain.run threeRecords
    let turns := turnsOf 0 (twoPerDrain.turns threeRecords)
    (∀ x ∈ s.readers, x.stage = .gone) ∧ takenOf turns = List.replicate 772 0 ∧
      s.dispatcher.stats.shortRecords = 3 ∧
      tally .drains (actsOf Handler.ignore.policy turns) = 3 ⌈/⌉ 2 := by
  intro s turns
  have hgone : ∀ x ∈ s.readers, x.stage = .gone := by decide +kernel
  have htaken : takenOf turns = List.replicate 772 0 := by decide +kernel
  have hfresh : ∀ x ∈ twoPerDrain.readers, x.Fresh ∧ x.perDrain = 2 := by
    intro x hx
    obtain rfl | rfl : x = _ ∨ x = _ := by simpa [twoPerDrain] using hx
    · exact ⟨⟨rfl, rfl⟩, rfl⟩
    · exact ⟨⟨rfl, rfl⟩, rfl⟩
  have hread : Reader.ReadsFile Handler.ignore.policy
      { channel := ⟨"short0", 0, .short⟩, perDrain := 2 } (List.replicate 772 0)
      (turns.map Turn.news) := by decide +kernel
  have hlength : (List.replicate 772 (0 : UInt8)).length = 3 * Shape.short.size + 4 := by
    rw [List.length_replicate]
    rfl
  have hpos : (2 : UInt64) ≠ 0 := by decide
  obtain ⟨-, -, -, hfile⟩ := drains_bound_records hpos hfresh rfl threeRecords
  refine ⟨hgone, htaken, by decide +kernel, ?_⟩
  exact hfile 0 _ 3 4 _ rfl hread hlength (by decide) htaken
    fun y hy => hgone y (List.mem_of_getElem? hy)

end Relay

end ProvenanceRelay
