import Mathlib
import ProvenanceRelay.Proofs.ReaderStart
import ProvenanceRelay.Proofs.RelayOrder

/-!
How a relay starts.

The registering thread counts what the readers tell. Each reader tells at most one thing, and what
is heard is what has been told, in order. So when as many readers as there are have been heard to
have started, every one of them has, and nobody else's word stands in for one that has not.
-/

namespace ProvenanceRelay.Relay

open Reader (Ack Mark Stillborn tidings)

variable {σ : Type}

/-! ### The marks of turns -/

def Turn.mark? (policy : Policy) (t : Turn) : Option Mark := t.reader.mark? policy t.news

/-- The marks that turns leave. -/
def marksOf (policy : Policy) (ts : List Turn) : List Mark := ts.filterMap (Turn.mark? policy)

def toldOf (policy : Policy) (ts : List Turn) : List Ack := tidings (marksOf policy ts)

lemma marksOf_append (policy : Policy) (ts us : List Turn) :
    marksOf policy (ts ++ us) = marksOf policy ts ++ marksOf policy us := List.filterMap_append

lemma toldOf_append (policy : Policy) (ts us : List Turn) :
    toldOf policy (ts ++ us) = toldOf policy ts ++ toldOf policy us := by
  rw [toldOf, marksOf_append, Reader.tidings_append, toldOf, toldOf]

lemma toldOf_singleton (policy : Policy) (t : Turn) :
    toldOf policy [t] = (t.reader.telling? policy t.news).toList := by
  have hmarks : marksOf policy [t] = (t.reader.mark? policy t.news).toList := by
    cases h : t.reader.mark? policy t.news <;> simp [marksOf, Turn.mark?, h]
  rw [toldOf, hmarks, Reader.tidings_mark?]

lemma turnsOf_append (i : ℕ) (ts us : List Turn) :
    turnsOf i (ts ++ us) = turnsOf i ts ++ turnsOf i us := List.filter_append ..

lemma length_toldOf (policy : Policy) {n : ℕ} {ts : List Turn} (hts : ∀ t ∈ ts, t.number < n) :
    (toldOf policy ts).length =
      ∑ i ∈ Finset.range n, (toldOf policy (turnsOf i ts)).length := by
  induction ts with
  | nil => simp [turnsOf, toldOf, marksOf]
  | cons t ts ih =>
    have hcons : ∀ i, (toldOf policy (turnsOf i (t :: ts))).length =
        (if t.number = i then (toldOf policy [t]).length else 0) +
          (toldOf policy (turnsOf i ts)).length := by
      intro i
      by_cases hi : t.number = i
      · have hturns : turnsOf i (t :: ts) = [t] ++ turnsOf i ts := by simp [turnsOf, hi]
        rw [hturns, toldOf_append, List.length_append, if_pos hi]
      · have hturns : turnsOf i (t :: ts) = turnsOf i ts := by simp [turnsOf, hi]
        rw [hturns, if_neg hi, Nat.zero_add]
    have hmem : t.number ∈ Finset.range n := Finset.mem_range.mpr (hts t (by simp))
    have happend : toldOf policy (t :: ts) = toldOf policy [t] ++ toldOf policy ts :=
      toldOf_append policy [t] ts
    rw [happend, List.length_append, ih fun u hu => hts u (by simp [hu]),
      Finset.sum_congr rfl fun i _ => hcons i, Finset.sum_add_distrib, Finset.sum_ite_eq,
      if_pos hmem]

lemma toldOf_turnsOf_sublist (policy : Policy) (i : ℕ) (ts : List Turn) :
    (toldOf policy (turnsOf i ts)).Sublist (toldOf policy ts) :=
  (List.filter_sublist.filterMap _).filterMap _

/-! ### What the registering thread has heard -/

/-- What has been told, as far as the registering thread has come. -/
def Heard (r : Relay σ) (told : List Ack) : Prop :=
  match r.failure with
  | none =>
    match r.phase with
    | .submitting next => told = r.acks ∧ next ≤ r.readers.length
    | .awaiting started =>
      told = List.replicate started .started ++ r.acks ∧ started ≤ r.readers.length
    | _ => List.replicate r.readers.length .started <+: told
  | some (.affinity cpu e) =>
    ∃ started < r.readers.length, List.replicate started .started ++ [.refused cpu e] <+: told
  | some (.startup (.exited started readers)) =>
    readers = r.readers.length ∧ started < readers ∧ told = List.replicate started .started ∧
      r.anyCanTell = false
  | some (.startup (.timeout started readers)) =>
    readers = r.readers.length ∧ started < readers ∧ List.replicate started .started <+: told
  | some (.pidFile _ _) => List.replicate r.readers.length .started <+: told
  | some _ => False

lemma Heard.tell {r s : Relay σ} {told more : List Ack} (h : r.Heard told)
    (hfailure : s.failure = r.failure) (hphase : s.phase = r.phase)
    (hlength : s.readers.length = r.readers.length) (hacks : s.acks = r.acks ++ more)
    (hsilent : r.anyCanTell = false → more = [] ∧ s.anyCanTell = false) :
    s.Heard (told ++ more) := by
  unfold Heard at h ⊢
  rw [hfailure, hphase, hlength, hacks]
  cases hf : r.failure with
  | none =>
    simp only [hf] at h ⊢
    cases hp : r.phase with
    | submitting next =>
      simp only [hp] at h ⊢
      exact ⟨by rw [h.1], h.2⟩
    | awaiting started =>
      simp only [hp] at h ⊢
      exact ⟨by rw [h.1, List.append_assoc], h.2⟩
    | _ =>
      simp only [hp] at h ⊢
      exact h.trans (List.prefix_append _ _)
  | some e =>
    simp only [hf] at h ⊢
    cases e with
    | affinity cpu e =>
      obtain ⟨started, hlt, hbegins⟩ := h
      exact ⟨started, hlt, hbegins.trans (List.prefix_append _ _)⟩
    | startup fault =>
      cases fault with
      | timeout started readers =>
        obtain ⟨hreaders, hlt, hbegins⟩ := h
        exact ⟨hreaders, hlt, hbegins.trans (List.prefix_append _ _)⟩
      | exited started readers =>
        obtain ⟨hreaders, hlt, htold, hbefore⟩ := h
        obtain ⟨hmore, hnone⟩ := hsilent hbefore
        exact ⟨hreaders, hlt, by rw [hmore, List.append_nil, htold], hnone⟩
    | pidFile path e => exact h.trans (List.prefix_append _ _)
    | _ => exact h.elim

/-- A start so far, with the turns that have been taken. -/
structure Starting (policy : Policy) (ts : List Turn) (r : Relay σ) : Prop where
  policy_eq : r.dispatcher.handler.policy = policy
  numbers : ∀ t ∈ ts, t.number < r.readers.length
  begun : ∀ i (x : Reader), r.readers[i]? = some x → x.Begun (marksOf policy (turnsOf i ts))
  acks : r.acks <:+ toldOf policy ts
  heard : r.Heard (toldOf policy ts)

namespace Starting

variable {policy : Policy} {ts : List Turn} {r r' : Relay σ}

lemma of_poised (h : r.Poised) : Starting r.dispatcher.handler.policy [] r where
  policy_eq := rfl
  numbers := by simp
  begun i x hx := (h.fresh x (List.mem_of_getElem? hx)).begun
  acks := by simp [h.acks]
  heard := by simp [Heard, h.failure, h.phase, h.acks, toldOf, marksOf]

lemma main (h : Starting policy ts r) (ho : r.Orderly) (honward : r.Onward r') :
    Starting policy ts r' := by
  have hfixed := honward.fixed
  have hheard := h.heard
  have hnone := ho.not_failed
  unfold Heard at hheard
  have hsuffix : r'.acks <:+ r.acks := by
    cases honward with
    | hear hphase hlt hacks => exact hacks ▸ List.suffix_cons _ _
    | hearRefused hphase hlt hacks => exact hacks ▸ List.suffix_cons _ _
    | _ => exact List.suffix_rfl
  refine ⟨hfixed.2 ▸ h.policy_eq, hfixed.1 ▸ h.numbers, hfixed.1 ▸ h.begun, hsuffix.trans h.acks,
    ?_⟩
  cases honward with
  | submit hphase hlt hsubmit =>
    have hfailure := hnone (by rw [hphase]; rfl)
    simp only [hfailure, hphase] at hheard
    simp only [Heard, hfailure]
    exact ⟨hheard.1, hlt⟩
  | unsubmitted hphase hlt hsubmit =>
    -- an open pool with workers refuses nobody
    have haccepting : r.pool.accepting = true := by simp [ho.accepting, hphase, Phase.isClosed]
    rw [ho.manned.submit haccepting ho.offered] at hsubmit
    cases hsubmit
  | submitted hphase hge =>
    have hfailure := hnone (by rw [hphase]; rfl)
    simp only [hfailure, hphase] at hheard
    simp only [Heard, hfailure]
    exact ⟨hheard.1, Nat.zero_le _⟩
  | @hear started acks hphase hlt hacks =>
    have hfailure := hnone (by rw [hphase]; rfl)
    simp only [hfailure, hphase] at hheard
    simp only [Heard, hfailure]
    refine ⟨?_, hlt⟩
    rw [hheard.1, hacks, List.replicate_succ', List.append_assoc]
    rfl
  | hearRefused hphase hlt hacks =>
    have hfailure := hnone (by rw [hphase]; rfl)
    simp only [hfailure, hphase] at hheard
    refine ⟨_, hlt, ?_⟩
    rw [hheard.1, hacks]
    simp
  | missed hphase hlt hacks hsilent =>
    -- nobody is left to be heard of, so all that has been told has been heard
    have hfailure := hnone (by rw [hphase]; rfl)
    simp only [hfailure, hphase, hacks, List.append_nil] at hheard
    exact ⟨rfl, hlt, hheard.1, hsilent⟩
  | overdue hphase hlt hacks =>
    have hfailure := hnone (by rw [hphase]; rfl)
    simp only [hfailure, hphase] at hheard
    exact ⟨rfl, hlt, hheard.1 ▸ List.prefix_append _ _⟩
  | heard hphase hge =>
    have hfailure := hnone (by rw [hphase]; rfl)
    simp only [hfailure, hphase] at hheard
    simp only [Heard, hfailure]
    rw [hheard.1, le_antisymm hheard.2 hge]
    exact List.prefix_append _ _
  | unwritten hphase =>
    have hfailure := hnone (by rw [hphase]; rfl)
    simp only [hfailure, hphase] at hheard
    exact hheard
  | unasked hphase | write hphase | stop hphase | idle hphase | busy hphase | count hphase
  | destroy hphase | join hphase | release hphase =>
    simp only [hphase] at hheard
    exact hheard

/-- What a turn does besides its reader's step. -/
lemma apply_fixed (r : Relay σ) (w : ℕ) (policy : Policy) (x : Reader) (n : Reader.News) :
    let s := r.apply w (x.step policy n).2
    s.readers = r.readers ∧ s.dispatcher.handler = r.dispatcher.handler ∧ s.failure = r.failure ∧
      s.phase = r.phase ∧ s.acks = r.acks ++ (x.telling? policy n).toList := by
  unfold apply Reader.telling?
  split <;> simp [*]

lemma turn (h : Starting policy ts r) {w i : ℕ} {x : Reader} {n : Reader.News}
    (hx : r.readers[i]? = some x) :
    Starting policy (ts ++ [⟨i, x, n⟩])
      ({ r with readers := r.readers.set i (x.step policy n).1 }.apply w
        (x.step policy n).2) := by
  obtain ⟨hreaders, hhandler, hfailure, hphase, hacks⟩ :=
    apply_fixed { r with readers := r.readers.set i (x.step policy n).1 } w policy x n
  generalize { r with readers := r.readers.set i (x.step policy n).1 }.apply w
    (x.step policy n).2 = s at hreaders hhandler hfailure hphase hacks ⊢
  have hlt := (List.getElem?_eq_some_iff.mp hx).1
  have hlength : s.readers.length = r.readers.length := by rw [hreaders, List.length_set]
  have htold : toldOf policy (ts ++ [⟨i, x, n⟩]) =
      toldOf policy ts ++ (x.telling? policy n).toList := by
    rw [toldOf_append, toldOf_singleton]
  have hheard := h.heard
  refine ⟨by rw [hhandler, h.policy_eq], fun t ht => ?_, fun j y hy => ?_, ?_, ?_⟩
  · rw [hlength]
    rcases List.mem_append.mp ht with ht | ht
    · exact h.numbers t ht
    · rwa [List.mem_singleton.mp ht]
  · -- each reader has left its own marks
    rw [hreaders] at hy
    rw [turnsOf_append, marksOf_append]
    rcases eq_or_ne i j with rfl | hij
    · -- the reader whose turn it is
      rw [List.getElem?_set_self hlt] at hy
      obtain rfl := Option.some.inj hy
      have hmark : marksOf policy (turnsOf i [⟨i, x, n⟩]) = (x.mark? policy n).toList := by
        cases hm : x.mark? policy n <;> simp [turnsOf, marksOf, Turn.mark?, hm]
      rw [hmark]
      exact (h.begun i x hx).step n
    · -- the others have left none in this turn
      rw [List.getElem?_set_ne hij] at hy
      have hnone : turnsOf j [⟨i, x, n⟩] = [] := by simp [turnsOf, hij]
      have hmarks : marksOf policy (turnsOf j [⟨i, x, n⟩]) = [] := by rw [hnone]; rfl
      rw [hmarks, List.append_nil]
      exact h.begun j y hy
  · -- what is told now waits behind the rest
    obtain ⟨heard, hsuffix⟩ := h.acks
    exact ⟨heard, by rw [hacks, htold, ← hsuffix, List.append_assoc]⟩
  · -- once nobody can be heard of, nothing is told
    rw [htold]
    refine h.heard.tell hfailure hphase hlength hacks fun hsilent => ?_
    have hall : ∀ y ∈ r.readers, y.stage.canTell = false := by
      simpa [anyCanTell, List.any_eq_false] using hsilent
    have hx := hall x (List.mem_of_getElem? hx)
    refine ⟨by rw [Reader.telling?_of_silent hx]; rfl, ?_⟩
    rw [anyCanTell, hreaders, List.any_eq_false]
    intro y hy
    rcases List.mem_or_eq_of_mem_set hy with hy | rfl
    · simp [hall y hy]
    · simp [Reader.silent_step hx]

lemma step (h : Starting policy ts r) (ho : r.Orderly) (e : Event) :
    Starting policy (ts ++ (r.turn? e).toList) (r.step e) := by
  have hmove := r.move e
  generalize r.turn? e = t, r.step e = s at hmove ⊢
  cases hmove with
  | turn n hw hx => exact h.policy_eq ▸ h.turn hx
  | main honward => exact (List.append_nil ts).symm ▸ h.main ho honward
  | _ =>
    rw [Option.toList_none, List.append_nil]
    exact ⟨h.policy_eq, h.numbers, h.begun, h.acks, h.heard⟩

lemma run (h : Starting policy ts r) (ho : r.Orderly) (es : List Event) :
    Starting policy (ts ++ r.turns es) (r.run es) := by
  induction es generalizing r ts with
  | nil => simpa [turns] using h
  | cons e es ih =>
    rw [turns, ← List.append_assoc]
    exact ih (h.step ho e) (ho.step e)

lemma exists_begun (h : Starting policy ts r) {i : ℕ} (hi : i < r.readers.length) :
    r.readers[i].Begun (marksOf policy (turnsOf i ts)) :=
  h.begun i _ (List.getElem?_eq_getElem hi)

lemma length_toldOf_le (h : Starting policy ts r) :
    ∀ i ∈ Finset.range r.readers.length, (toldOf policy (turnsOf i ts)).length ≤ 1 :=
  fun _ hi => (h.exists_begun (Finset.mem_range.mp hi)).length_tidings_le

/-- **There is always room for what a reader is about to tell.** -/
lemma room (h : Starting policy ts r) {i : ℕ} {x : Reader} (hx : r.readers[i]? = some x)
    {n : Reader.News} {a : Ack} (ha : x.telling? policy n = some a) :
    r.acks.length < r.readers.length := by
  have hi := (List.getElem?_eq_some_iff.mp hx).1
  have hnone : toldOf policy (turnsOf i ts) = [] := (h.begun i x hx).tidings_eq_nil ha
  have hlt : (toldOf policy ts).length < r.readers.length := by
    rw [length_toldOf policy h.numbers]
    calc ∑ j ∈ Finset.range r.readers.length, (toldOf policy (turnsOf j ts)).length
        < ∑ _j ∈ Finset.range r.readers.length, 1 :=
          Finset.sum_lt_sum h.length_toldOf_le ⟨i, Finset.mem_range.mpr hi, by simp [hnone]⟩
      _ = r.readers.length := by simp
  exact h.acks.length_le.trans_lt hlt

/-- When as many readers as there are have told that they have started, every one of them has. -/
lemma eq_started (h : Starting policy ts r)
    (hbegins : List.replicate r.readers.length .started <+: toldOf policy ts) :
    ∀ i < r.readers.length, marksOf policy (turnsOf i ts) = Reader.started := by
  have hsum := length_toldOf policy h.numbers
  have hle : r.readers.length ≤ (toldOf policy ts).length := by
    simpa using hbegins.length_le
  have htotal : ∑ j ∈ Finset.range r.readers.length, (toldOf policy (turnsOf j ts)).length ≤
      r.readers.length := by simpa using Finset.sum_le_sum h.length_toldOf_le
  -- each tells one thing at most, so nothing else has been told
  have htold : List.replicate r.readers.length .started = toldOf policy ts :=
    hbegins.eq_of_length (by simp; omega)
  intro i hi
  have hmem := Finset.mem_range.mpr hi
  -- and each has told something
  have hone : (toldOf policy (turnsOf i ts)).length = 1 := by
    refine le_antisymm (h.length_toldOf_le i hmem) ?_
    by_contra hzero
    have hlt : ∑ j ∈ Finset.range r.readers.length, (toldOf policy (turnsOf j ts)).length <
        ∑ _j ∈ Finset.range r.readers.length, 1 :=
      Finset.sum_lt_sum h.length_toldOf_le ⟨i, hmem, by omega⟩
    simp at hlt
    omega
  obtain ⟨a, ha⟩ := List.length_eq_one_iff.mp hone
  have hstarted : a = .started := by
    have hmem : a ∈ toldOf policy ts :=
      (toldOf_turnsOf_sublist policy i ts).subset (by simp [ha])
    rw [← htold] at hmem
    exact List.eq_of_mem_replicate hmem
  have hmine : a ∈ toldOf policy (turnsOf i ts) := by simp [ha]
  exact (h.exists_begun hi).eq_started (hstarted ▸ hmine)

lemma eq_started_of_mem (h : Starting policy ts r) {i : ℕ} (hi : i < r.readers.length)
    (htold : .told .started ∈ marksOf policy (turnsOf i ts)) :
    marksOf policy (turnsOf i ts) = Reader.started :=
  (h.exists_begun hi).eq_started (List.mem_filterMap.mpr ⟨_, htold, rfl⟩)

lemma length_toldOf_of_started (h : Starting policy ts r)
    (hall : ∀ i < r.readers.length, .told .started ∈ marksOf policy (turnsOf i ts)) :
    (toldOf policy ts).length = r.readers.length := by
  have hone : ∀ i ∈ Finset.range r.readers.length, (toldOf policy (turnsOf i ts)).length = 1 := by
    intro i hi
    have hi := Finset.mem_range.mp hi
    rw [toldOf, h.eq_started_of_mem hi (hall i hi)]
    rfl
  rw [length_toldOf policy h.numbers, Finset.sum_congr rfl hone]
  simp

/-- How many readers have not panicked in their initialization, when none of those that are not
pinned can be heard of any more. -/
lemma length_told_of_silent (h : Starting policy ts r) (hpins : ∀ x ∈ r.readers, x.pins = false)
    (hsilent : r.anyCanTell = false) :
    (toldOf policy ts).length + ((Finset.range r.readers.length).filter fun i =>
      .panicked ∈ marksOf policy (turnsOf i ts)).card = r.readers.length := by
  -- whoever can be heard of no more has started, or has panicked in its initialization
  have hone : ∀ i ∈ Finset.range r.readers.length, (toldOf policy (turnsOf i ts)).length =
      if .panicked ∈ marksOf policy (turnsOf i ts) then 0 else 1 := by
    intro i hi
    have hi := Finset.mem_range.mp hi
    have hmem := List.getElem_mem hi
    have hstage : r.readers[i].stage.canTell = false := by
      simpa using List.any_eq_false.mp hsilent _ hmem
    unfold toldOf
    rcases (h.exists_begun hi).of_silent hstage with hms | hms
    · simp [hms, Reader.started]
    · rw [hpins _ hmem] at hms
      generalize marksOf policy (turnsOf i ts) = ms at hms ⊢
      cases hms with
      | panicked => simp
      | unpinned e hpins => cases hpins
      | refused e cpu hpins => cases hpins
  rw [length_toldOf policy h.numbers, Finset.sum_congr rfl hone, Finset.card_filter,
    ← Finset.sum_add_distrib]
  have hsplit : ∀ i ∈ Finset.range r.readers.length,
      ((if .panicked ∈ marksOf policy (turnsOf i ts) then 0 else 1) +
        if .panicked ∈ marksOf policy (turnsOf i ts) then 1 else 0) = 1 := by
    intro i _
    split <;> rfl
  rw [Finset.sum_congr rfl hsplit]
  simp

lemma not_refused (h : Starting policy ts r) (hpins : ∀ x ∈ r.readers, x.pins = false) {cpu : ℕ}
    {e : SystemError} : .refused cpu e ∉ toldOf policy ts := by
  intro htold
  obtain ⟨m, hm, hack⟩ := List.mem_filterMap.mp htold
  obtain ⟨t, ht, hmark⟩ := List.mem_filterMap.mp hm
  have hi := h.numbers t ht
  have hmine : .refused cpu e ∈ toldOf policy (turnsOf t.number ts) := by
    refine List.mem_filterMap.mpr ⟨m, List.mem_filterMap.mpr ⟨t, ?_, hmark⟩, hack⟩
    simp [turnsOf, ht]
  have hpin := (h.exists_begun hi).pins_of_refused hmine
  rw [hpins _ (List.getElem_mem hi)] at hpin
  cases hpin

end Starting

lemma pins_step {r : Relay σ} {b : Bool} (h : ∀ x ∈ r.readers, x.pins = b) (e : Event) :
    ∀ x ∈ (r.step e).readers, x.pins = b := by
  cases hturn : r.turn? e with
  | none => rwa [(Quiet.step hturn).readers]
  | some t =>
    have hstep := TurnStep.of_turn? hturn
    rw [hstep.readers]
    intro x hx
    rcases List.mem_or_eq_of_mem_set hx with hx | rfl
    · exact h x hx
    · rw [Reader.pins_step]
      exact h _ (List.mem_of_getElem? hstep.reader)

lemma length_readers_run (r : Relay σ) (es : List Event) :
    (r.run es).readers.length = r.readers.length :=
  run_inv (P := fun s => s.readers.length = r.readers.length)
    (fun s e hs => (s.length_readers_step e).trans hs) rfl es

lemma pins_run {r : Relay σ} {b : Bool} (h : ∀ x ∈ r.readers, x.pins = b) (es : List Event) :
    ∀ x ∈ (r.run es).readers, x.pins = b :=
  run_inv (P := fun s => ∀ x ∈ s.readers, x.pins = b) (fun _ e hs => pins_step hs e) h es

/-! ### How a start ends -/

/-- How the start has ended, if it is over. Only then does the PID file come. -/
def verdict (r : Relay σ) : Option (Except RelayError Unit) :=
  match r.failure with
  | some (.pidFile _ _) => some (.ok ())
  | some e => some (.error e)
  | none =>
    match r.phase with
    | .submitting _ | .awaiting _ => none
    | _ => some (.ok ())

/-- How many steps the registering thread is from the end of the start at most. -/
def toStart (r : Relay σ) : ℕ :=
  match r.phase with
  | .submitting next => 2 * r.readers.length + 2 - next
  | .awaiting started => r.readers.length + 1 - started
  | _ => 0

namespace Starting

variable {policy : Policy} {ts : List Turn} {r : Relay σ}

lemma heard_of_verdict (h : Starting policy ts r) {v : Except RelayError Unit}
    (hv : r.verdict = some v) :
    (v = .ok () ∧ List.replicate r.readers.length .started <+: toldOf policy ts) ∨
      (∃ cpu e, v = .error (.affinity cpu e) ∧ .refused cpu e ∈ toldOf policy ts) ∨
      (∃ started < r.readers.length, v = .error (.startup (.exited started r.readers.length)) ∧
        (toldOf policy ts).length = started ∧ r.anyCanTell = false) ∨
      ∃ started readers, r.failure = some (.startup (.timeout started readers)) := by
  have hheard := h.heard
  unfold Heard at hheard
  unfold verdict at hv
  cases hf : r.failure with
  | none =>
    simp only [hf] at hv hheard
    cases hp : r.phase with
    | submitting | awaiting => simp [hp] at hv
    | _ =>
      simp only [hp] at hv hheard
      exact .inl ⟨(Option.some.inj hv).symm, hheard⟩
  | some e =>
    simp only [hf] at hv hheard
    cases e with
    | affinity cpu e =>
      obtain ⟨started, -, hbegins⟩ := hheard
      exact .inr (.inl ⟨cpu, e, (Option.some.inj hv).symm, hbegins.subset (by simp)⟩)
    | startup fault =>
      cases fault with
      | timeout started readers => exact .inr (.inr (.inr ⟨started, readers, rfl⟩))
      | exited started readers =>
        obtain ⟨rfl, hlt, htold, hsilent⟩ := hheard
        exact .inr (.inr (.inl ⟨started, hlt, (Option.some.inj hv).symm, by simp [htold], hsilent⟩))
    | pidFile path e => exact .inl ⟨(Option.some.inj hv).symm, hheard⟩
    | _ => exact hheard.elim

/-- The registering thread is not stuck when it has nothing more to hear. -/
lemma progress (h : Starting policy ts r) (hv : r.verdict = none)
    (hover : r.anyCanTell = false ∨ (toldOf policy ts).length = r.readers.length) :
    ∃ r', r.main? = some r' ∧ (r'.verdict ≠ none ∨ r'.toStart < r.toStart) := by
  have hheard := h.heard
  unfold Heard at hheard
  unfold verdict at hv
  cases hf : r.failure with
  | some e => cases e <;> simp [hf] at hv
  | none =>
    simp only [hf] at hv hheard
    cases hp : r.phase with
    | submitting next =>
      have hmain : r.main? = some (r.submitNext next) := by simp only [main?, hp]
      refine ⟨_, hmain, ?_⟩
      simp only [hp] at hheard
      unfold submitNext
      split
      · next hlt =>
        split
        · refine .inr ?_
          simp only [toStart, hp]
          omega
        · exact .inl (by simp [verdict, fail])
      · next hge =>
        refine .inr ?_
        simp only [toStart, hp]
        omega
    | awaiting started =>
      simp only [hp] at hheard
      have hgo : ¬ (started < r.readers.length ∧ r.acks = [] ∧ r.anyCanTell = true) := by
        rintro ⟨hlt, hacks, hany⟩
        rcases hover with hsilent | hall
        · simp [hany] at hsilent
        · rw [hheard.1, hacks] at hall
          simp at hall
          omega
      have hmain : r.main? = some (r.hear started) := by simp only [main?, hp, if_neg hgo]
      refine ⟨_, hmain, ?_⟩
      unfold Relay.hear
      split
      · next hlt =>
        split
        · refine .inr ?_
          simp only [toStart, hp]
          omega
        · exact .inl (by simp [verdict, fail])
        · next hacks =>
          split
          · next hany => exact (hgo ⟨hlt, hacks, hany⟩).elim
          · exact .inl (by simp [verdict, fail])
      · exact .inl (by simp [verdict, hf])
    | _ => simp [hp] at hv

/-- **The start comes to an end** when every reader has told something or can be heard of no more:
the registering thread needs only to go on. -/
lemma exists_verdict (h : Starting policy ts r) (ho : r.Orderly)
    (hover : r.anyCanTell = false ∨ (toldOf policy ts).length = r.readers.length) :
    ∃ m, (r.run (List.replicate m .main)).verdict ≠ none := by
  -- the induction is on the steps that are left
  induction hk : r.toStart using Nat.strong_induction_on generalizing r with
  | _ k ih =>
    by_cases hv : r.verdict = none
    · obtain ⟨r', hmain, hr'⟩ := h.progress hv hover
      have hstep : r.step .main = r' := by simp [Relay.step, hmain]
      rcases hr' with hr' | hlt
      · exact ⟨1, by simpa [hstep] using hr'⟩
      · have honward := Onward.of_main? hmain
        have hreaders := honward.fixed.1
        have hover' : r'.anyCanTell = false ∨ (toldOf policy ts).length = r'.readers.length := by
          rwa [anyCanTell, hreaders]
        obtain ⟨m, hm⟩ := ih _ (hk ▸ hlt) (h.main ho honward) (ho.main honward) hover' rfl
        exact ⟨m + 1, by rwa [List.replicate_succ, run_cons, hstep]⟩
    · exact ⟨0, hv⟩

end Starting

/-- **A start succeeds only on the word of every reader**, in whatever order the threads go on.
Nobody waits to tell something. A reader that cannot be pinned lets the start fail. Where readers
are not pinned and nobody is given up, the start succeeds if and only if each has been initialized
and has told so. If some have panicked instead, it fails and says how many have not. It is over as
soon as nobody is left to be heard of. -/
theorem start_sound {r : Relay σ} (h : r.Poised) (es : List Event) :
    let u := r.run es
    let policy := r.dispatcher.handler.policy
    let marks (i : ℕ) := marksOf policy (turnsOf i (r.turns es))
    let n := r.readers.length
    let panicked := (Finset.range n).filter fun i => .panicked ∈ marks i
    (∀ (i : ℕ) (x : Reader) news a, u.readers[i]? = some x → x.telling? policy news = some a →
      u.acks.length < n) ∧
    (∀ i < n, ∀ e, .unpinned e ∈ marks i → u.verdict ≠ some (.ok ())) ∧
    ((∀ x ∈ r.readers, x.pins = false) →
      (∀ started readers, u.failure ≠ some (.startup (.timeout started readers))) →
      ∀ v, u.verdict = some v →
        (v = .ok () ↔ ∀ i < n, .initialized ∈ marks i ∧ .told .started ∈ marks i) ∧
        (1 ≤ panicked.card → v = .error (.startup (.exited (n - panicked.card) n)))) ∧
    ((∀ i < n, .told .started ∈ marks i) ∨ (∀ x ∈ u.readers, x.stage.canTell = false) →
      ∃ m, (u.run (List.replicate m .main)).verdict ≠ none) := by
  intro u policy marks n panicked
  have hu : Starting policy (r.turns es) u := (Starting.of_poised h).run h.orderly es
  have ho : u.Orderly := h.orderly.run es
  have hn : u.readers.length = n := r.length_readers_run es
  -- a start that succeeds has the word of every reader
  have hstarted : u.verdict = some (.ok ()) → ∀ i < n, marks i = Reader.started := by
    intro hv
    rcases hu.heard_of_verdict hv with ⟨-, hbegins⟩ | ⟨cpu, e, hne, -⟩ | ⟨k, -, hne, -⟩ | ⟨k, m, hf⟩
    · exact hn ▸ hu.eq_started hbegins
    · cases hne
    · cases hne
    · simp [verdict, hf] at hv
  have htold : (∀ i < n, .told .started ∈ marks i) →
      (toldOf policy (r.turns es)).length = u.readers.length :=
    fun hall => hu.length_toldOf_of_started fun i hi => hall i (hn ▸ hi)
  refine ⟨fun i x news a hx ha => ?_, fun i hi e he hv => ?_, fun hpins htime v hv => ?_,
    fun hover => ?_⟩
  · rw [← hn]
    exact hu.room hx ha
  · simp [hstarted hv i hi, Reader.started] at he
  · have hpins := pins_run hpins es
    rcases hu.heard_of_verdict hv with
      ⟨rfl, -⟩ | ⟨cpu, e, -, hrefused⟩ | ⟨k, hlt, rfl, hk, hsilent⟩ | ⟨k, m, hf⟩
    · -- it has succeeded, on the word of each
      have hall := hstarted hv
      refine ⟨⟨fun _ i hi => by simp [hall i hi, Reader.started], fun _ => rfl⟩, fun hone => ?_⟩
      have hzero : panicked = ∅ := by
        refine Finset.filter_false_of_mem fun i hi => ?_
        simp [hall i (Finset.mem_range.mp hi), Reader.started]
      simp [hzero] at hone
    · -- nobody is refused who is not to be pinned
      exact (hu.not_refused hpins hrefused).elim
    · -- nobody is left to be heard of
      have hsum := hu.length_told_of_silent hpins hsilent
      rw [hk, hn] at hsum
      refine ⟨⟨fun hok => (by cases hok), fun hall => ?_⟩, fun _ => ?_⟩
      · have hlength := htold fun i hi => (hall i hi).2
        omega
      · rw [hn, ← hsum, Nat.add_sub_cancel]
    · -- its time was not over
      exact (htime k m hf).elim
  · -- there is nothing more to be heard
    refine hu.exists_verdict ho (hover.symm.imp (fun hsilent => ?_) htold)
    simpa [anyCanTell, List.any_eq_false] using hsilent

/-- The first of two readers panics in its initialization. -/
def panickingStart : List Event :=
  [.main, .main, .main, .take 0, .take 1, .reader 0 .go, .reader 1 .go, .reader 0 .panic,
    .reader 1 .go, .reader 1 .go, .main, .reader 0 .go, .reader 1 .go, .main]

theorem start_sound_panickingStart :
    oneCpuRelay.Poised ∧ (∀ x ∈ oneCpuRelay.readers, x.pins = false) ∧
      (oneCpuRelay.run panickingStart).verdict = some (.error (.startup (.exited 1 2))) := by
  have hpoised : oneCpuRelay.Poised := poised_oneCpuRelay none
  have hpins : ∀ x ∈ oneCpuRelay.readers, x.pins = false := by decide
  have hfailure : (oneCpuRelay.run panickingStart).failure = some (.startup (.exited 1 2)) := by
    decide +kernel
  have htime : ∀ started readers, (oneCpuRelay.run panickingStart).failure ≠
      some (.startup (.timeout started readers)) := by simp [hfailure]
  have hpanicked : ((Finset.range oneCpuRelay.readers.length).filter fun i => .panicked ∈
      marksOf oneCpuRelay.dispatcher.handler.policy
        (turnsOf i (oneCpuRelay.turns panickingStart))).card = 1 := by decide +kernel
  have hover : (oneCpuRelay.run panickingStart).verdict.isSome := by decide +kernel
  obtain ⟨v, hv⟩ := Option.isSome_iff_exists.mp hover
  have herror := ((start_sound hpoised panickingStart).2.2.1 hpins htime v hv).2 hpanicked.ge
  dsimp only at herror
  rw [hpanicked] at herror
  exact ⟨hpoised, hpins, hv.trans (congrArg some herror)⟩

end ProvenanceRelay.Relay
