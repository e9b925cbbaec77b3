import Mathlib
import ProvenanceRelay.Reader.Loop

/-!
How the bytes of a channel are cut into records.

Whatever pieces the bytes are read in, what a reader has dispatched, what it holds and what it has
given up are together what it has taken from its channel. Only a cleared flag makes it give
anything up, and then it reads no more; so a loop that has ended has dispatched the whole records
of what it has taken, whatever room it has for them.
-/

namespace ProvenanceRelay.Reader

/-! ### Whole records -/

/-- The stretch of a size with a number. -/
def slice (size i : ℕ) (bs : Bytes) : Bytes := (bs.drop (i * size)).take size

variable {size : ℕ}

lemma records_of_length_lt {bs : Bytes} (h : bs.length < size) : records size bs = [] := by
  rw [records, dif_neg]
  simp only [List.length_take]
  omega

lemma records_append {r : Bytes} (hpos : 0 < size) (hr : r.length = size) (bs : Bytes) :
    records size (r ++ bs) = r :: records size bs := by
  have htake : (r ++ bs).take size = r := by rw [← hr, List.take_left]
  have hdrop : (r ++ bs).drop size = bs := by rw [← hr, List.drop_left]
  rw [records, dif_pos ⟨hpos, by rw [htake, hr]⟩, htake, hdrop]

lemma records_flatten_append {rs : List Bytes} {rest : Bytes} (hpos : 0 < size)
    (hrs : ∀ r ∈ rs, r.length = size) (hrest : rest.length < size) :
    records size (rs.flatten ++ rest) = rs := by
  induction rs with
  | nil => simpa using records_of_length_lt hrest
  | cons r rs ih =>
    rw [List.flatten_cons, List.append_assoc, records_append hpos (hrs r (by simp)),
      ih fun x hx => hrs x (by simp [hx])]

/-- The whole records and the rest of them make up the bytes. -/
lemma records_rest (hpos : 0 < size) (bs : Bytes) :
    ∃ rest : Bytes, bs = (records size bs).flatten ++ rest ∧ rest.length = bs.length % size ∧
      ∀ r ∈ records size bs, r.length = size := by
  induction bs using records.induct size with
  | case1 bs h ih =>
    obtain ⟨rest, hbs, hlen, hall⟩ := ih
    have hle : size ≤ bs.length := by
      have := h.2
      simp only [List.length_take] at this
      omega
    have htake : (bs.take size).length = size := by simp [hle]
    rw [records, dif_pos h]
    refine ⟨rest, ?_, ?_, ?_⟩
    · rw [List.flatten_cons, List.append_assoc, ← hbs, List.take_append_drop]
    · rw [hlen, List.length_drop, Nat.mod_eq_sub_mod hle]
    · intro r hr
      rcases List.mem_cons.mp hr with rfl | hr
      · exact htake
      · exact hall r hr
  | case2 bs h =>
    have hlt : bs.length < size := by
      simp only [List.length_take] at h
      omega
    rw [records_of_length_lt hlt]
    exact ⟨bs, by simp, (Nat.mod_eq_of_lt hlt).symm, by simp⟩

lemma records_eq_slices (hpos : 0 < size) (bs : Bytes) :
    records size bs = (List.range (bs.length / size)).map fun i => slice size i bs := by
  induction bs using records.induct size with
  | case1 bs h ih =>
    have hle : size ≤ bs.length := by
      have := h.2
      simp only [List.length_take] at this
      omega
    rw [records, dif_pos h, ih, List.length_drop, Nat.div_eq_sub_div hpos hle,
      List.range_succ_eq_map, List.map_cons, List.map_map]
    congr 1
    · simp [slice]
    · refine List.map_congr_left fun i _ => ?_
      simp only [slice, Function.comp_apply, List.drop_drop]
      rw [Nat.succ_mul, Nat.add_comm]
  | case2 bs h =>
    have hlt : bs.length < size := by
      simp only [List.length_take] at h
      omega
    rw [records_of_length_lt hlt, Nat.div_eq_of_lt hlt, List.range_zero, List.map_nil]

/-- The whole stretches of a beginning are those of the bytes that begin with it. -/
lemma slice_of_prefix {bs stream : Bytes} (h : bs <+: stream) {i : ℕ}
    (hi : i < bs.length / size) : slice size i bs = slice size i stream := by
  obtain ⟨tail, rfl⟩ := h
  have hend : (i + 1) * size ≤ bs.length :=
    le_trans (Nat.mul_le_mul_right size hi) (Nat.div_mul_le_self _ _)
  rw [Nat.succ_mul] at hend
  unfold slice
  rw [List.drop_append_of_le_length (by omega), List.take_append_of_le_length]
  simp only [List.length_drop]
  omega

/-! ### What a run keeps -/

def Deed.record? : Deed → Option Bytes
  | .dispatch r => some r
  | _ => none

def dispatched (ds : List Deed) : List Bytes := ds.filterMap Deed.record?

@[simp] lemma dispatched_append (ds es : List Deed) :
    dispatched (ds ++ es) = dispatched ds ++ dispatched es := by
  simp [dispatched]

/-- The bytes that a reader has read and has yet to dispatch. -/
def Phase.held : Phase → Bytes
  | .reading buf => buf
  | .torn buf => buf
  | .batch rs => rs.flatten
  | _ => []

/-- The records that are yet to be dispatched. -/
def Phase.queue : Phase → List Bytes
  | .batch rs => rs
  | _ => []

def Phase.Pausing : Phase → Prop
  | .top | .batch _ | .done => True
  | _ => False

def Input.isReadFault : Input → Bool
  | .read (.failed _) => true
  | _ => false

/-- The running flag is never set again once it has been cleared. -/
def StaysCleared (is : List Input) : Prop :=
  is.Pairwise fun i j => i = .flag false → j ≠ .flag true

instance (is : List Input) : Decidable (StaysCleared is) :=
  inferInstanceAs (Decidable (is.Pairwise _))

namespace Drain

variable (d : Drain)

/-- Where a step leads, what it does and what it takes. -/
inductive Move : Phase → Input → Phase → List Deed → Bytes → Prop
  | idle (p : Phase) (i : Input) : Move p i p [] []
  | start : Move .top (.flag true) .polling [] []
  | stop : Move .top (.flag false) .done [] []
  | ready : Move .polling (.polled none) (.reading []) [] []
  | pollFault (e : SystemError) : Move .polling (.polled (some e)) .top [pollFault e] []
  | get (buf bs : Bytes) : Move (.reading buf) (.read (.data bs))
      (d.settle (buf ++ bs.take (d.room buf))).1 (d.settle (buf ++ bs.take (d.room buf))).2
      (bs.take (d.room buf))
  | block (buf : Bytes) :
      Move (.reading buf) (.read .wouldBlock) (d.settle buf).1 (d.settle buf).2 []
  | readFault (buf : Bytes) (e : SystemError) :
      Move (.reading buf) (.read (.failed e)) .top [readFault e] []
  | resume (buf : Bytes) : Move (.torn buf) (.flag true) (.reading buf) [] []
  | abandon (buf : Bytes) :
      Move (.torn buf) (.flag false) (d.release buf).1 (d.release buf).2 []
  | dispatch (r : Bytes) (rs : List Bytes) :
      Move (.batch (r :: rs)) .next (if rs.isEmpty then .top else .batch rs) [.dispatch r] []
  | exhaust : Move (.batch []) .next .top [] []

lemma move (p : Phase) (i : Input) :
    d.Move p i (d.step p i).1 (d.step p i).2 (d.taken p i) := by
  fun_cases Drain.step d p i
  case case13 =>
    have htaken : d.taken p i = [] := by
      unfold taken
      split <;> simp_all
    rw [htaken]
    exact .idle p i
  all_goals constructor

/-- What has been dispatched, what is held and what is lost make up what has been taken. -/
structure Framed (s : Progress) (lost : Bytes) : Prop where
  taken : s.consumed = (dispatched s.deeds).flatten ++ s.phase.held ++ lost
  whole : ∀ r ∈ dispatched s.deeds ++ s.phase.queue, r.length = d.shape.size
  short : lost.length < d.shape.size
  last : lost ≠ [] → s.phase.Pausing

lemma framed_init : d.Framed {} [] where
  taken := rfl
  whole := by simp [dispatched, Phase.queue]
  short := d.shape.size_pos
  last h := absurd rfl h

variable {d}

/-- Letting go of the held bytes loses at most the part of a record at their end. -/
lemma framed_release {ds : List Deed} {buf consumed : Bytes}
    (htaken : consumed = (dispatched ds).flatten ++ buf)
    (hwhole : ∀ r ∈ dispatched ds, r.length = d.shape.size) :
    ∃ lost, lost.length = buf.length % d.shape.size ∧
      d.Framed ⟨(d.release buf).1, ds ++ (d.release buf).2, consumed⟩ lost := by
  obtain ⟨rest, hbuf, hlen, hall⟩ := records_rest d.shape.size_pos buf
  have hshort : rest.length < d.shape.size := hlen ▸ Nat.mod_lt _ d.shape.size_pos
  refine ⟨rest, hlen, ?_⟩
  unfold release
  split
  · next hnil =>
    rw [hnil] at hbuf
    have hrest : buf = rest := by simpa using hbuf
    subst hrest
    exact ⟨by simpa [Phase.held] using htaken, by simpa [Phase.queue] using hwhole, hshort,
      fun _ => trivial⟩
  · refine ⟨?_, ?_, hshort, fun _ => trivial⟩
    · have hnone : dispatched [.drained] = [] := rfl
      rw [htaken, dispatched_append, hnone, List.append_nil, List.append_assoc]
      exact congrArg _ hbuf
    · intro r hr
      simp only [dispatched_append, Phase.queue, List.mem_append] at hr
      rcases hr with (hr | hr) | hr
      · exact hwhole r hr
      · simp [dispatched, Deed.record?] at hr
      · exact hall r hr

/-- A read that ends on the boundary of a record loses nothing, and one inside a record holds it. -/
lemma framed_settle {ds : List Deed} {buf consumed : Bytes}
    (htaken : consumed = (dispatched ds).flatten ++ buf)
    (hwhole : ∀ r ∈ dispatched ds, r.length = d.shape.size) :
    d.Framed ⟨(d.settle buf).1, ds ++ (d.settle buf).2, consumed⟩ [] := by
  unfold settle
  split
  · next haligned =>
    obtain ⟨lost, hlen, hf⟩ := framed_release htaken hwhole
    rw [haligned] at hlen
    rwa [List.length_eq_zero_iff.mp hlen] at hf
  · exact ⟨by simpa [Phase.held] using htaken, by simpa [Phase.queue] using hwhole,
      d.shape.size_pos, fun h => absurd rfl h⟩

lemma Framed.goto {s : Progress} {lost : Bytes} (hf : d.Framed s lost) {q : Phase}
    {ds : List Deed} (hheld : q.held = s.phase.held) (hqueue : q.queue = s.phase.queue)
    (hlast : lost ≠ [] → q.Pausing) (hds : dispatched ds = []) :
    d.Framed ⟨q, s.deeds ++ ds, s.consumed ++ []⟩ lost :=
  ⟨by simpa [hheld, hds] using hf.taken, by simpa [hqueue, hds] using hf.whole, hf.short, hlast⟩

lemma Framed.dispatch {ds : List Deed} {consumed lost r : Bytes} {rs : List Bytes}
    (hf : d.Framed ⟨.batch (r :: rs), ds, consumed⟩ lost) :
    d.Framed ⟨if rs.isEmpty then .top else .batch rs, ds ++ [.dispatch r], consumed ++ []⟩
      lost := by
  obtain ⟨htaken, hwhole, hshort, -⟩ := hf
  have hone : dispatched [.dispatch r] = [r] := rfl
  simp only [Phase.held, Phase.queue, List.flatten_cons] at htaken hwhole
  cases rs with
  | nil =>
    refine ⟨?_, ?_, hshort, fun _ => trivial⟩
    · simpa [hone, Phase.held] using htaken
    · simpa [hone, Phase.queue] using hwhole
  | cons r' rs =>
    refine ⟨?_, ?_, hshort, fun _ => trivial⟩
    · simpa [hone, Phase.held] using htaken
    · simpa [hone, Phase.queue] using hwhole

/-- **One step loses nothing but when it finds the flag cleared inside a record.** -/
lemma Framed.advance {s : Progress} {lost : Bytes} (hf : d.Framed s lost) {i : Input}
    (hread : i.isReadFault = false) (hflag : lost ≠ [] → i ≠ .flag true) :
    ∃ lost', d.Framed (d.advance s i) lost' ∧ (lost' = lost ∨ i = .flag false) := by
  obtain ⟨p, ds, consumed⟩ := s
  have hwhole : ∀ r ∈ dispatched ds, r.length = d.shape.size :=
    fun r hr => hf.whole r (by simp [hr])
  -- within a drain nothing has been lost yet
  have hnone : ∀ {buf : Bytes}, p = .reading buf ∨ p = .torn buf → lost = [] := by
    rintro buf (rfl | rfl) <;> exact by_contra hf.last
  unfold Drain.advance
  dsimp only
  generalize hq : (d.step p i).1 = q, hes : (d.step p i).2 = es, ht : d.taken p i = t
  have hm : d.Move p i q es t := by rw [← hq, ← hes, ← ht]; exact d.move p i
  clear hq hes ht
  cases hm with
  | idle => exact ⟨lost, hf.goto rfl rfl hf.last rfl, .inl rfl⟩
  | start => exact ⟨lost, hf.goto rfl rfl (fun h => absurd rfl (hflag h)) rfl, .inl rfl⟩
  | stop => exact ⟨lost, hf.goto rfl rfl (fun _ => trivial) rfl, .inl rfl⟩
  | ready => exact ⟨lost, hf.goto rfl rfl hf.last rfl, .inl rfl⟩
  | pollFault => exact ⟨lost, hf.goto rfl rfl (fun _ => trivial) rfl, .inl rfl⟩
  | get buf bs =>
    obtain rfl := hnone (.inl rfl)
    have htaken : consumed = (dispatched ds).flatten ++ buf := by simpa [Phase.held] using hf.taken
    exact ⟨[], framed_settle (by rw [htaken, List.append_assoc]) hwhole, .inl rfl⟩
  | block buf =>
    obtain rfl := hnone (.inl rfl)
    exact ⟨[], framed_settle (by simpa [Phase.held] using hf.taken) hwhole, .inl rfl⟩
  | readFault => simp [Input.isReadFault] at hread
  | resume buf =>
    obtain rfl := hnone (.inr rfl)
    exact ⟨[], hf.goto rfl rfl (absurd rfl) rfl, .inl rfl⟩
  | abandon buf =>
    obtain rfl := hnone (.inr rfl)
    have htaken : consumed ++ [] = (dispatched ds).flatten ++ buf := by
      simpa [Phase.held] using hf.taken
    obtain ⟨lost', -, hf'⟩ := framed_release htaken hwhole
    exact ⟨lost', hf', .inr rfl⟩
  | dispatch => exact ⟨lost, hf.dispatch, .inl rfl⟩
  | exhaust => exact ⟨lost, hf.goto rfl rfl (fun _ => trivial) rfl, .inl rfl⟩

lemma Framed.run {s : Progress} {lost : Bytes} (hf : d.Framed s lost) {is : List Input}
    (hread : ∀ i ∈ is, i.isReadFault = false) (hclear : StaysCleared is)
    (hflag : lost ≠ [] → ∀ i ∈ is, i ≠ .flag true) : ∃ lost', d.Framed (d.run s is) lost' := by
  induction is generalizing s lost with
  | nil => exact ⟨lost, hf⟩
  | cons i is ih =>
    obtain ⟨lost', hf', hlost⟩ := hf.advance (hread i (by simp)) fun h => hflag h i (by simp)
    obtain ⟨hhead, htail⟩ := List.pairwise_cons.mp hclear
    refine ih hf' (fun j hj => hread j (by simp [hj])) htail fun h j hj => ?_
    rcases hlost with rfl | hi
    · exact hflag h j (by simp [hj])
    · exact hhead j hj hi

lemma dispatched_of_done {is : List Input} (hread : ∀ i ∈ is, i.isReadFault = false)
    (hclear : StaysCleared is) (hend : (d.run {} is).phase = .done) :
    dispatched (d.run {} is).deeds = records d.shape.size (d.run {} is).consumed := by
  obtain ⟨lost, hf⟩ := d.framed_init.run hread hclear (absurd rfl)
  have htaken := hf.taken
  have hwhole := hf.whole
  simp only [hend, Phase.held, Phase.queue, List.append_nil] at htaken hwhole
  rw [htaken, records_flatten_append d.shape.size_pos hwhole hf.short]

/-- **A loop that has ended has dispatched the stretches of its stream**: each whole one of what
it has taken, once and in order, and nothing else. It has lost only what does not fill a record,
and neither the pieces it has read nor the room it has make a difference. -/
theorem dispatched_eq_slices (d : Drain) (stream : Bytes) (is : List Input)
    (hread : ∀ i ∈ is, i.isReadFault = false) (hclear : StaysCleared is)
    (hend : (d.run {} is).phase = .done) (hstream : (d.run {} is).consumed <+: stream) :
    let size := d.shape.size
    let s := d.run {} is
    dispatched s.deeds =
        (List.range (s.consumed.length / size)).map (fun i => slice size i stream) ∧
      (∀ i < s.consumed.length / size, (slice size i stream).length = size) ∧
      (∃ lost : Bytes, s.consumed = (dispatched s.deeds).flatten ++ lost ∧
        lost.length = s.consumed.length % size) ∧
      ∀ (perDrain : UInt64) (js : List Input),
        let t := (⟨d.shape, perDrain⟩ : Drain).run {} js
        (∀ j ∈ js, j.isReadFault = false) → StaysCleared js → t.phase = .done →
          t.consumed = s.consumed → dispatched t.deeds = dispatched s.deeds := by
  intro size s
  have hrecords : dispatched s.deeds = records size s.consumed :=
    dispatched_of_done hread hclear hend
  have hslices : dispatched s.deeds =
      (List.range (s.consumed.length / size)).map fun i => slice size i stream := by
    rw [hrecords, records_eq_slices d.shape.size_pos]
    exact List.map_congr_left fun i hi => slice_of_prefix hstream (List.mem_range.mp hi)
  obtain ⟨lost, htaken, hlen, hall⟩ := records_rest d.shape.size_pos s.consumed
  refine ⟨hslices, fun i hi => ?_, ⟨lost, hrecords ▸ htaken, hlen⟩, ?_⟩
  · refine hall _ ?_
    rw [← hrecords, hslices]
    exact List.mem_map.mpr ⟨i, List.mem_range.mpr hi, rfl⟩
  · intro perDrain js t hread' hclear' hend' htaken'
    have hrecords' : dispatched t.deeds = records size t.consumed :=
      dispatched_of_done hread' hclear' hend'
    rw [hrecords', htaken', hrecords]

/-- A record in two pieces, and a part of a record in which the flag is cleared. -/
def tornInputs : List Input :=
  [.flag true, .polled (some .noSpace), .flag true, .polled none,
    .read (.data (List.replicate 100 1)), .flag true, .read .wouldBlock, .flag true,
    .read .interrupted, .read (.data (List.replicate 156 2)), .next, .flag true, .polled none,
    .read (.data (List.replicate 40 3)), .flag false, .flag false]

theorem dispatched_eq_slices_torn :
    let d : Drain := ⟨.short, 1⟩
    let stream : Bytes := List.replicate 100 1 ++ List.replicate 156 2 ++ List.replicate 300 3
    StaysCleared tornInputs ∧ (d.run {} tornInputs).phase = .done ∧
      (d.run {} tornInputs).consumed.length = 296 ∧
      dispatched (d.run {} tornInputs).deeds = [slice 256 0 stream] := by
  intro d stream
  have hread : ∀ i ∈ tornInputs, i.isReadFault = false := by decide +kernel
  have hclear : StaysCleared tornInputs := by decide +kernel
  have hend : (d.run {} tornInputs).phase = .done := by decide +kernel
  have hstream : (d.run {} tornInputs).consumed <+: stream := by decide +kernel
  have hlen : (d.run {} tornInputs).consumed.length = 296 := by decide +kernel
  have h := (dispatched_eq_slices d stream tornInputs hread hclear hend hstream).1
  have hone : 296 / d.shape.size = 1 := by simp [d, Shape.size]
  rw [hlen, hone] at h
  exact ⟨hclear, hend, hlen, h⟩

end Drain

end ProvenanceRelay.Reader
