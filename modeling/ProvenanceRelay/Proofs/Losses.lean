import ProvenanceRelay.Proofs.Framing

/-!
What becomes of a channel whose reads fail.

What a reader takes from its channel is cut into pieces: the records that it dispatches, and what it
throws away because a read has failed. A failed read starts the reader afresh wherever it is in the
stream; so what is thrown away shifts the records after it, unless it is a number of whole records.
-/

namespace ProvenanceRelay.Reader

/-! ### Pieces -/

/-- A piece of what has been taken from a channel. -/
inductive Piece where
  | record (bs : Bytes)
  | thrown (bs : Bytes)
  deriving DecidableEq

namespace Piece

def bytes : Piece → Bytes
  | record bs => bs
  | thrown bs => bs

def record? : Piece → Option Bytes
  | record bs => some bs
  | thrown _ => none

def thrown? : Piece → Option Bytes
  | record _ => none
  | thrown bs => some bs

end Piece

lemma record?_map_record (rs : List Bytes) :
    (rs.map Piece.record).filterMap Piece.record? = rs := by
  induction rs with
  | nil => rfl
  | cons r rs ih => simp [Piece.record?, ih]

lemma thrown?_map_record (rs : List Bytes) :
    (rs.map Piece.record).filterMap Piece.thrown? = [] := by
  induction rs with
  | nil => rfl
  | cons r rs ih => simp [Piece.thrown?]

lemma bytes_map_record (rs : List Bytes) :
    (rs.map Piece.record).flatMap Piece.bytes = rs.flatten := by
  induction rs with
  | nil => rfl
  | cons r rs ih => simp [Piece.bytes, ih]

variable {size : ℕ}

lemma slice_at {pre r rest : Bytes} {k : ℕ} (hpre : pre.length = k * size) (hr : r.length = size) :
    slice size k (pre ++ (r ++ rest)) = r := by
  unfold slice
  rw [← hpre, List.drop_left, ← hr, List.take_left]

/-- Pieces that are numbers of whole records leave the records on their places. -/
lemma exists_slices {ps : List Piece}
    (hwhole : ∀ r ∈ ps.filterMap Piece.record?, r.length = size)
    (hthrown : ∀ bs ∈ ps.filterMap Piece.thrown?, size ∣ bs.length) (k : ℕ) :
    ∃ js : List ℕ, js.Pairwise (· < ·) ∧
      (∀ j ∈ js, k ≤ j ∧ (j + 1) * size ≤ k * size + (ps.flatMap Piece.bytes).length) ∧
      ∀ pre rest : Bytes, pre.length = k * size →
        ps.filterMap Piece.record? =
          js.map fun j => slice size j (pre ++ (ps.flatMap Piece.bytes ++ rest)) := by
  -- the induction is on the pieces, with the number of records that come before them
  induction ps generalizing k with
  | nil => exact ⟨[], .nil, by simp, by simp⟩
  | cons p ps ih =>
    cases p with
    | record r =>
      have hr : r.length = size := hwhole r (by simp [Piece.record?])
      obtain ⟨js, hlt, hle, heq⟩ := ih (fun x hx => hwhole x (by simp [Piece.record?, hx]))
        (fun x hx => hthrown x (by simpa [Piece.thrown?] using hx)) (k + 1)
      refine ⟨k :: js, List.pairwise_cons.mpr ⟨fun j hj => (hle j hj).1, hlt⟩, ?_, ?_⟩
      · intro j hj
        simp only [List.flatMap_cons, List.length_append, Piece.bytes, hr]
        rcases List.mem_cons.mp hj with rfl | hj
        · exact ⟨le_rfl, by rw [Nat.succ_mul]; omega⟩
        · obtain ⟨hk, hend⟩ := hle j hj
          rw [Nat.succ_mul k] at hend
          exact ⟨by omega, by omega⟩
      · intro pre rest hpre
        have hnext := heq (pre ++ r) rest (by rw [List.length_append, hpre, hr, Nat.succ_mul])
        simp only [List.append_assoc] at hnext
        simp only [List.filterMap_cons, Piece.record?, List.flatMap_cons, Piece.bytes,
          List.map_cons, List.append_assoc, hnext, slice_at hpre hr]
    | thrown bs =>
      obtain ⟨n, hn⟩ : size ∣ bs.length := hthrown bs (by simp [Piece.thrown?])
      obtain ⟨js, hlt, hle, heq⟩ := ih (fun x hx => hwhole x (by simpa [Piece.record?] using hx))
        (fun x hx => hthrown x (by simp [Piece.thrown?, hx])) (k + n)
      have hshift : (k + n) * size = k * size + bs.length := by rw [hn]; ring
      refine ⟨js, hlt, fun j hj => ?_, fun pre rest hpre => ?_⟩
      · obtain ⟨hk, hend⟩ := hle j hj
        simp only [List.flatMap_cons, List.length_append, Piece.bytes]
        exact ⟨by omega, by omega⟩
      · have hnext := heq (pre ++ bs) rest (by rw [List.length_append, hpre, hshift])
        simp only [List.append_assoc] at hnext
        simpa only [List.filterMap_cons, Piece.record?, List.flatMap_cons, Piece.bytes,
          List.append_assoc] using hnext

/-! ### Runs with failed reads -/

namespace Drain

variable (d : Drain)

/-- What a step throws away because a read has failed. -/
def thrown? : Phase → Input → Option Bytes
  | .reading buf, .read (.failed _) => some buf
  | _, _ => none

/-- What a run throws away because reads have failed, drain by drain. -/
def thrown (s : Progress) : List Input → List Bytes
  | [] => []
  | i :: is => (thrown? s.phase i).toList ++ thrown (d.advance s i) is

/-- What a run takes is cut into pieces, what is held, and what is given up at the end. -/
structure Cut (s : Progress) (ps : List Piece) (rest : Bytes) : Prop where
  taken : s.consumed = ps.flatMap Piece.bytes ++ (s.phase.held ++ rest)
  records : dispatched s.deeds = ps.filterMap Piece.record?
  whole : ∀ r ∈ dispatched s.deeds, r.length = d.shape.size
  short : rest.length < d.shape.size

variable {d}

lemma Framed.cut {s : Progress} {lost : Bytes} (hf : d.Framed s lost) :
    d.Cut s ((dispatched s.deeds).map Piece.record) lost where
  taken := by rw [hf.taken, bytes_map_record, List.append_assoc]
  records := (record?_map_record _).symm
  whole r hr := hf.whole r (by simp [hr])
  short := hf.short

lemma run_after (ds : List Deed) (bs : Bytes) (s : Progress) (is : List Input) :
    d.run ⟨s.phase, ds ++ s.deeds, bs ++ s.consumed⟩ is =
      ⟨(d.run s is).phase, ds ++ (d.run s is).deeds, bs ++ (d.run s is).consumed⟩ := by
  induction is generalizing s with
  | nil => rfl
  | cons i is ih =>
    rw [run_cons, run_cons, ← ih]
    simp only [advance, List.append_assoc]

lemma thrown_congr {s t : Progress} (h : s.phase = t.phase) (is : List Input) :
    d.thrown s is = d.thrown t is := by
  induction is generalizing s t with
  | nil => rfl
  | cons i is ih =>
    have hnext : (d.advance s i).phase = (d.advance t i).phase := by simp only [advance, h]
    rw [thrown, thrown, h, ih hnext]

lemma advance_of_thrown {s : Progress} {i : Input} {buf : Bytes}
    (h : thrown? s.phase i = some buf) :
    s.phase = .reading buf ∧ ∃ e, d.advance s i = ⟨.top, s.deeds ++ [readFault e], s.consumed⟩ := by
  unfold thrown? at h
  split at h
  · next buf' e hp =>
    obtain rfl := Option.some.inj h
    refine ⟨hp, e, ?_⟩
    simp [advance, hp, Drain.step, taken]
  · cases h

/-- **A step keeps the frame unless it throws something away.** -/
lemma Framed.advance_of_not_thrown {s : Progress} {lost : Bytes} (hf : d.Framed s lost) {i : Input}
    (hthrown : thrown? s.phase i = none) (hflag : lost ≠ [] → i ≠ .flag true) :
    ∃ lost', d.Framed (d.advance s i) lost' ∧ (lost' = lost ∨ i = .flag false) := by
  cases hread : i.isReadFault with
  | false => exact hf.advance hread hflag
  | true =>
    -- a read that fails where nothing is read is no news
    obtain ⟨e, rfl⟩ : ∃ e, i = .read (.failed e) := by
      unfold Input.isReadFault at hread
      split at hread
      · exact ⟨_, rfl⟩
      · cases hread
    have hidle : d.advance s (.read (.failed e)) = s := by
      obtain ⟨p, ds, bs⟩ := s
      obtain ⟨hstep, htaken⟩ : d.step p (.read (.failed e)) = (p, []) ∧
          d.taken p (.read (.failed e)) = [] := by
        cases p with
        | reading buf => cases hthrown
        | batch rs => cases rs <;> exact ⟨rfl, rfl⟩
        | _ => exact ⟨rfl, rfl⟩
      simp only [Drain.advance, hstep, htaken, List.append_nil]
    rw [hidle]
    exact ⟨lost, hf, .inl rfl⟩

/-- The records of a run between two failed reads are framed, so all of a run is cut into pieces. -/
lemma Framed.exists_cut {s : Progress} {lost : Bytes} (hf : d.Framed s lost) {is : List Input}
    (hclear : StaysCleared is) (hflag : lost ≠ [] → ∀ i ∈ is, i ≠ .flag true) :
    ∃ ps rest, d.Cut (d.run s is) ps rest ∧ ps.filterMap Piece.thrown? = d.thrown s is := by
  induction is generalizing s lost with
  | nil => exact ⟨_, _, hf.cut, thrown?_map_record _⟩
  | cons i is ih =>
    obtain ⟨hhead, htail⟩ := List.pairwise_cons.mp hclear
    cases hthrown : thrown? s.phase i with
    | none =>
      obtain ⟨lost', hf', hlost⟩ := hf.advance_of_not_thrown hthrown fun h => hflag h i (by simp)
      have hflag' : lost' ≠ [] → ∀ j ∈ is, j ≠ .flag true := fun h j hj => by
        rcases hlost with rfl | hi
        · exact hflag h j (by simp [hj])
        · exact hhead j hj hi
      simpa [Drain.thrown, hthrown] using ih hf' htail hflag'
    | some buf =>
      obtain ⟨hp, e, hnext⟩ := d.advance_of_thrown hthrown
      have hlost : lost = [] := by_contra fun h => by simpa [hp, Phase.Pausing] using hf.last h
      -- what comes after the failed read is a run of its own
      obtain ⟨ps, rest, hcut, hps⟩ := ih d.framed_init htail (absurd rfl)
      have hrun := d.run_after (s.deeds ++ [readFault e]) s.consumed {} is
      simp only [List.append_nil] at hrun
      have hnone : dispatched [readFault e] = [] := rfl
      refine ⟨(dispatched s.deeds).map Piece.record ++ .thrown buf :: ps, rest, ?_, ?_⟩
      · rw [run_cons, hnext, hrun]
        refine ⟨?_, ?_, ?_, hcut.short⟩
        · have htaken : s.consumed = (dispatched s.deeds).flatten ++ buf := by
            simpa [hp, hlost, Phase.held] using hf.taken
          simp [hcut.taken, htaken, bytes_map_record, Piece.bytes]
        · rw [dispatched_append, dispatched_append, hnone, List.append_nil, hcut.records,
            List.filterMap_append, record?_map_record]
          rfl
        · intro r hr
          simp only [dispatched_append, hnone, List.append_nil, List.mem_append] at hr
          rcases hr with hr | hr
          · exact hf.whole r (by simp [hr])
          · exact hcut.whole r hr
      · have hsame : d.thrown (d.advance s i) is = d.thrown {} is :=
          d.thrown_congr (by rw [hnext]) is
        rw [Drain.thrown, hthrown, hsame, List.filterMap_append, thrown?_map_record, ← hps]
        rfl

/-- Where something has been read, a part of a record has. -/
def Ragged (d : Drain) : Phase → Prop
  | .reading buf => buf = [] ∨ ¬ d.shape.size ∣ buf.length
  | .torn buf => ¬ d.shape.size ∣ buf.length
  | _ => True

lemma ragged_release (buf : Bytes) : d.Ragged (d.release buf).1 := by
  unfold release
  split <;> trivial

lemma ragged_settle (buf : Bytes) : d.Ragged (d.settle buf).1 := by
  unfold settle
  split
  · exact ragged_release buf
  · next h => exact fun hdvd => h (Nat.mod_eq_zero_of_dvd hdvd)

lemma ragged_step {p : Phase} (h : d.Ragged p) (i : Input) : d.Ragged (d.step p i).1 := by
  have hm := d.move p i
  generalize (d.step p i).1 = q, (d.step p i).2 = es, d.taken p i = t at hm
  cases hm with
  | idle => exact h
  | ready => exact .inl rfl
  | get | block => exact ragged_settle _
  | resume => exact .inr h
  | abandon => exact ragged_release _
  | dispatch r rs => split <;> trivial
  | _ => trivial

lemma ragged_of_mem_thrown {s : Progress} (h : d.Ragged s.phase) {is : List Input} {bs : Bytes}
    (hbs : bs ∈ d.thrown s is) : bs = [] ∨ ¬ d.shape.size ∣ bs.length := by
  induction is generalizing s with
  | nil => cases hbs
  | cons i is ih =>
    rcases List.mem_append.mp hbs with hnow | hlater
    · obtain ⟨hp, -⟩ := d.advance_of_thrown (Option.mem_toList.mp hnow)
      rw [hp] at h
      exact h
    · exact ih (ragged_step h i) hlater

/-- **What a reader takes is cut into the records that it dispatches and what failed reads throw
away**, in the order of the stream, whenever and however often its reads fail. What a failed read
throws away is nothing or no number of whole records. As long as it is a number of whole records,
the records are stretches of the stream with numbers that rise. -/
theorem dispatched_between_failures (d : Drain) (stream : Bytes) (is : List Input)
    (hclear : StaysCleared is) (hstream : (d.run {} is).consumed <+: stream) :
    let size := d.shape.size
    let s := d.run {} is
    (∃ (ps : List Piece) (rest : Bytes),
      s.consumed = ps.flatMap Piece.bytes ++ (s.phase.held ++ rest) ∧ rest.length < size ∧
      dispatched s.deeds = ps.filterMap Piece.record? ∧
      d.thrown {} is = ps.filterMap Piece.thrown? ∧
      ∀ r ∈ dispatched s.deeds, r.length = size) ∧
    (∀ bs ∈ d.thrown {} is, bs = [] ∨ ¬ size ∣ bs.length) ∧
    ((∀ bs ∈ d.thrown {} is, size ∣ bs.length) →
      ∃ js : List ℕ, js.Pairwise (· < ·) ∧ (∀ j ∈ js, (j + 1) * size ≤ s.consumed.length) ∧
        dispatched s.deeds = js.map fun j => slice size j stream) := by
  intro size s
  obtain ⟨ps, rest, ⟨htaken, hrecords, hwhole, hshort⟩, hthrown⟩ :=
    d.framed_init.exists_cut hclear (absurd rfl)
  refine ⟨⟨ps, rest, htaken, hshort, hrecords, hthrown.symm, hwhole⟩,
    fun bs hbs => ragged_of_mem_thrown (s := {}) trivial hbs, fun hbytes => ?_⟩
  -- whole records are thrown away, so the others stay in their places
  obtain ⟨js, hlt, hle, heq⟩ := exists_slices (hrecords ▸ hwhole) (hthrown ▸ hbytes) 0
  obtain ⟨more, rfl⟩ := hstream
  refine ⟨js, hlt, fun j hj => ?_, ?_⟩
  · have hend := (hle j hj).2
    show (j + 1) * d.shape.size ≤ (d.run {} is).consumed.length
    rw [htaken, List.length_append]
    omega
  · have hslices := heq [] (s.phase.held ++ rest ++ more) (by simp)
    rw [hrecords, hslices, htaken]
    simp only [List.nil_append, List.append_assoc]
    rfl

def failingStream : Bytes := List.replicate 100 1 ++ List.replicate 256 2 ++ List.replicate 156 3

/-- A read that fails inside the first record, and one that fails between records. -/
def failingInputs : List Input :=
  [.flag true, .polled none, .read (.data (List.replicate 100 1)), .flag true,
    .read (.failed (.other "Input/output error (os error 5)")), .flag true, .polled none,
    .read (.data (List.replicate 256 2)), .next, .flag true, .polled none,
    .read (.failed (.other "Input/output error (os error 5)")), .flag false]

theorem dispatched_between_failures_shifted :
    let s := (⟨.short, 1⟩ : Drain).run {} failingInputs
    StaysCleared failingInputs ∧ s.consumed <+: failingStream ∧
      ∃ (ps : List Piece) (rest : Bytes),
        s.consumed = ps.flatMap Piece.bytes ++ rest ∧
        ps.filterMap Piece.record? = [List.replicate 256 2] ∧
        ps.filterMap Piece.thrown? = [List.replicate 100 1, []] := by
  intro s
  have hclear : StaysCleared failingInputs := by decide +kernel
  have hstream : s.consumed <+: failingStream := by decide +kernel
  have hdone : s.phase = .done := by decide +kernel
  have hdispatched : dispatched s.deeds = [List.replicate 256 2] := by decide +kernel
  have hthrown : (⟨.short, 1⟩ : Drain).thrown {} failingInputs = [List.replicate 100 1, []] := by
    decide +kernel
  obtain ⟨⟨ps, rest, htaken, -, hrecords, hlost, -⟩, -⟩ :=
    dispatched_between_failures ⟨.short, 1⟩ failingStream failingInputs hclear hstream
  refine ⟨hclear, hstream, ps, rest, ?_, hrecords ▸ hdispatched, hlost ▸ hthrown⟩
  rw [htaken]
  simp only [s, hdone, Phase.held, List.nil_append]

/-- A read that fails inside a record makes a later record straddle two of the stream. -/
theorem exists_straddling_record :
    ¬ ∀ (d : Drain) (stream : Bytes) (is : List Input), StaysCleared is →
      (d.run {} is).consumed <+: stream →
        ∃ js : List ℕ, js.Pairwise (· < ·) ∧
          dispatched (d.run {} is).deeds = js.map fun j => slice d.shape.size j stream := by
  intro h
  obtain ⟨js, -, hjs⟩ := h ⟨.short, 1⟩ failingStream failingInputs (by decide +kernel)
    (by decide +kernel)
  have hdispatched : dispatched ((⟨.short, 1⟩ : Drain).run {} failingInputs).deeds =
      [List.replicate 256 2] := by decide +kernel
  rw [hdispatched] at hjs
  obtain ⟨j, hj⟩ : ∃ j, slice 256 j failingStream = List.replicate 256 2 := by
    obtain ⟨j, -, hj⟩ := List.mem_map.mp (hjs ▸ List.mem_singleton_self _)
    exact ⟨j, hj⟩
  have hlen : (slice 256 j failingStream).length = 256 := by rw [hj, List.length_replicate]
  have hstream : failingStream.length = 512 := by decide +kernel
  have hshort : j < 2 := by
    simp only [slice, List.length_take, List.length_drop, hstream] at hlen
    omega
  interval_cases j
  · exact absurd hj (by decide +kernel)
  · exact absurd hj (by decide +kernel)

end Drain

end ProvenanceRelay.Reader
