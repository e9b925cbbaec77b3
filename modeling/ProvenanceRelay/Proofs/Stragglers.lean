import Mathlib
import ProvenanceRelay.Proofs.Startup
import ProvenanceRelay.Proofs.Stopping

/-!
Readers that a stop does not wait for.

Whoever stops a relay finds out that readers are left, and counts them afterwards. In between
readers exit, so that the number that is told is the number of those that are left by then.
-/

namespace ProvenanceRelay

lemma WorkerPool.perm_unfinished {τ : Type} {p : WorkerPool τ} {e : Event τ}
    (h : ∀ f t, p.note? e = some (f, t) → f = .taken) :
    p.unfinished.Perm (p.step e).unfinished := by
  have hperm := p.unfinished_step e
  rcases hnote : p.note? e with _ | ⟨f, t⟩
  · simpa [hnote, Log.tasks] using hperm
  · obtain rfl := h f t hnote
    simpa [hnote, Log.tasks] using hperm

namespace Relay

variable {σ : Type}

/-! ### Those that have not exited -/

/-- The readers that have not exited: in the queue, or with a worker that is not done with them. -/
def stragglers (r : Relay σ) : List ℕ := r.pool.unfinished

def exit? (r : Relay σ) : Event → Option ℕ
  | .uncount w => r.pool.workers[w]?.bind fun
    | .ended i => some i
    | _ => none
  | _ => none

def exits (r : Relay σ) : List Event → List ℕ
  | [] => []
  | e :: es => (r.exit? e).toList ++ exits (r.step e) es

variable {r r' : Relay σ}

/-- The registering thread adds to the stragglers the reader that it hands over, if any. -/
lemma Onward.stragglers (h : r.Onward r') (ho : r.Orderly) :
    r'.stragglers = r.stragglers ∨
      ∃ next, r.phase = .submitting next ∧ next < r.readers.length ∧
        r'.phase = .submitting (next + 1) ∧ r'.stragglers.Perm (next :: r.stragglers) := by
  cases h with
  | @submit next pool hphase hlt hsubmit =>
    refine .inr ⟨next, hphase, hlt, rfl, ?_⟩
    have haccepting : r.pool.accepting = true := by simp [ho.accepting, hphase, Phase.isClosed]
    rw [ho.manned.submit haccepting ho.offered,
      ho.manned.run_offer_enqueue haccepting ho.offered] at hsubmit
    obtain rfl := Except.ok.inj hsubmit
    simp only [Relay.stragglers, WorkerPool.unfinished, List.append_assoc, List.singleton_append]
    rw [← List.append_assoc, ← List.append_assoc]
    exact List.perm_middle
  | destroy =>
    refine .inl ?_
    simp only [Relay.stragglers, WorkerPool.close]
    split <;> rfl
  | _ => exact .inl rfl

/-- What an event does with the stragglers, unless a reader is handed over in it: one of them exits,
or none. -/
lemma stragglers_step (ho : r.Orderly) (e : Event) :
    r.stragglers.Perm ((r.exit? e).toList ++ (r.step e).stragglers) ∨
      ∃ next, r.phase = .submitting next ∧ next < r.readers.length ∧
        (r.step e).phase = .submitting (next + 1) ∧
        (r.step e).stragglers.Perm (next :: r.stragglers) := by
  have honward : ∀ {r'}, r.Onward r' → r.stragglers.Perm r'.stragglers ∨ _ := fun h =>
    (h.stragglers ho).imp_left fun hsame => .of_eq hsame.symm
  cases e with
  | main =>
    cases hmain : r.main? with
    | none => simp [step, hmain, exit?]
    | some r' => simpa [step, hmain, exit?] using honward (.of_main? hmain)
  | timeout =>
    rcases Onward.expire r with hsame | h
    · simp [step, hsame, exit?]
    · exact honward h
  | stop =>
    change r.stragglers.Perm r.requestStop.stragglers ∨ _
    unfold requestStop
    split
    · next hphase => exact .inl .rfl
    · exact .inl .rfl
  | take w =>
    refine .inl (WorkerPool.perm_unfinished (e := .take w) fun f t hnote => ?_)
    simp only [WorkerPool.note?] at hnote
    split at hnote <;> simp_all
  | reader w n =>
    -- when a reader goes, its worker still has its task, which is yet to be counted as finished
    refine .inl ?_
    change r.stragglers.Perm (r.stepReader w n).stragglers
    unfold stepReader
    split
    · exact .rfl
    · next i x hreader =>
      have hfinish : r.stragglers.Perm (r.pool.finish w).unfinished :=
        WorkerPool.perm_unfinished (e := .finish w .returned) (by simp [WorkerPool.note?])
      dsimp only
      unfold apply
      split
      · exact .rfl
      · exact .rfl
      · exact hfinish
      · exact .rfl
  | uncount w =>
    refine .inl ?_
    have hperm := r.pool.unfinished_step (.uncount w)
    cases hexit : r.exit? (.uncount w) with
    | none =>
      refine WorkerPool.perm_unfinished (e := .uncount w) fun f t hnote => ?_
      cases hw : r.pool.workers[w]? with
      | none => simp [WorkerPool.note?, hw] at hnote
      | some x => cases x <;> simp [WorkerPool.note?, exit?, hw] at hnote hexit
    | some i =>
      have hnote : r.pool.note? (.uncount w) = some (.finished, i) := by
        cases hw : r.pool.workers[w]? with
        | none => simp [exit?, hw] at hexit
        | some x => cases x <;> simp_all [WorkerPool.note?, exit?]
      change r.pool.unfinished.Perm (i :: (r.pool.step (.uncount w)).unfinished)
      simpa [hnote, WorkerPool.Log.tasks] using hperm
  | leave w => exact .inl (WorkerPool.perm_unfinished (e := .leave w) (by simp [WorkerPool.note?]))

lemma stragglers_step_of_late (ho : r.Orderly) (hlate : r.phase.isEarly = false) (e : Event) :
    r.stragglers.Perm ((r.exit? e).toList ++ (r.step e).stragglers) := by
  refine (r.stragglers_step ho e).resolve_right ?_
  rintro ⟨next, hphase, -⟩
  simp [hphase, Phase.isEarly] at hlate

/-- **From then on the stragglers become fewer by those that exit**, and by no others. -/
lemma stragglers_run (ho : r.Orderly) (hlate : r.phase.isEarly = false) (es : List Event) :
    r.stragglers.Perm (r.exits es ++ (r.run es).stragglers) := by
  induction es generalizing r with
  | nil => exact .rfl
  | cons e es ih =>
    have hstep := stragglers_step_of_late ho hlate e
    have hrest := ih (ho.step e) (late_run hlate [e]).1
    rw [exits, List.append_assoc]
    exact hstep.trans (hrest.append_left _)

/-! ### Each reader once -/

/-- Every straggler is a reader that has been handed over, and none is counted twice. -/
structure Distinct (r : Relay σ) : Prop where
  nodup : r.stragglers.Nodup
  lt : ∀ i ∈ r.stragglers, i < r.readers.length
  handed : ∀ next, r.phase = .submitting next → ∀ i ∈ r.stragglers, i < next

lemma Onward.submitting (h : r.Onward r') {next : ℕ} (hphase : r'.phase = .submitting next) :
    ∃ before ≤ next, r.phase = .submitting before := by
  cases h with
  | @submit before _ hbefore =>
    obtain rfl : before + 1 = next := by simpa using hphase
    exact ⟨before, Nat.le_succ _, hbefore⟩
  | _ => simp [fail, halt] at hphase

lemma submitting_step {e : Event} {next : ℕ} (h : (r.step e).phase = .submitting next) :
    ∃ before ≤ next, r.phase = .submitting before := by
  have hmove := r.move e
  generalize r.turn? e = t, r.step e = s at hmove h
  cases hmove with
  | main honward => exact honward.submitting h
  | turn =>
    rw [apply_eq] at h
    exact ⟨next, le_rfl, h⟩
  | _ => exact ⟨next, le_rfl, h⟩

namespace Distinct

lemma step (h : r.Distinct) (ho : r.Orderly) (e : Event) : (r.step e).Distinct := by
  rcases r.stragglers_step ho e with hperm | ⟨next, hphase, hlt, hphase', hperm⟩
  · have hmem : ∀ i ∈ (r.step e).stragglers, i ∈ r.stragglers := fun i hi =>
      hperm.mem_iff.mpr (List.mem_append_right _ hi)
    refine ⟨(hperm.nodup_iff.mp h.nodup).of_append_right, fun i hi => ?_, fun next hnext i hi => ?_⟩
    · rw [length_readers_step]
      exact h.lt i (hmem i hi)
    · obtain ⟨before, hle, hbefore⟩ := submitting_step hnext
      exact (h.handed before hbefore i (hmem i hi)).trans_le hle
  · have hfresh : next ∉ r.stragglers := fun hmem => (h.handed next hphase next hmem).false
    have hmem : ∀ i ∈ (r.step e).stragglers, i = next ∨ i ∈ r.stragglers := fun i hi =>
      List.mem_cons.mp (hperm.mem_iff.mp hi)
    refine ⟨hperm.nodup_iff.mpr (h.nodup.cons hfresh), fun i hi => ?_, fun later hlater i hi => ?_⟩
    · rw [length_readers_step]
      rcases hmem i hi with rfl | hold
      · exact hlt
      · exact h.lt i hold
    · obtain rfl : next + 1 = later := by simpa [hphase'] using hlater
      rcases hmem i hi with rfl | hold
      · exact Nat.lt_succ_self _
      · exact (h.handed next hphase i hold).trans (Nat.lt_succ_self _)

lemma run (h : r.Distinct) (ho : r.Orderly) (es : List Event) : (r.run es).Distinct :=
  (run_inv (P := fun s => s.Orderly ∧ s.Distinct)
    (fun _ e hs => ⟨hs.1.step e, hs.2.step hs.1 e⟩) ⟨ho, h⟩ es).2

lemma of_poised (h : r.Poised) : r.Distinct := by
  have hnil : r.stragglers = [] := by
    simp [stragglers, WorkerPool.unfinished, h.pool, WorkerPool.filterMap_task?_replicate]
  exact ⟨by simp [hnil], by simp [hnil], by simp [hnil]⟩

end Distinct

/-- Whoever has not gone is a straggler, once all readers have been handed over. -/
lemma Orderly.mem_stragglers (ho : r.Orderly) (hlate : r.phase.isEarly = false) {i : ℕ} {x : Reader}
    (hx : r.readers[i]? = some x) (hstage : x.stage ≠ .gone) : i ∈ r.stragglers := by
  rcases ho.placed i x hx hstage with ⟨next, -, hphase⟩ | hqueue | hworker
  · simp [hphase, Phase.isEarly] at hlate
  · simp [stragglers, WorkerPool.unfinished, hqueue]
  · have hmem : i ∈ r.pool.workers.filterMap Worker.task? :=
      List.mem_filterMap.mpr ⟨_, hworker, rfl⟩
    simp [stragglers, WorkerPool.unfinished, hmem]

/-! ### How a stop comes to its number -/

/-- The number that a stop is about to tell, after it has given up waiting. -/
def Phase.missed? : Phase → Option ℕ
  | .destroying false n | .joining false n | .releasing false n | .down false n => some n
  | _ => none

/-- Where the registering thread is changes when it goes on, when it begins to stop, and when it
gives up waiting. -/
lemma phase_step (r : Relay σ) (e : Event) :
    (r.step e).phase = r.phase ∨ e = .main ∧ r.main? = some (r.step e) ∨
      (r.step e).phase = .waiting ∨
      e = .timeout ∧ r.phase = .waiting ∧ r.pool.isIdle = false ∧
        (r.step e).phase = .counting false := by
  cases e with
  | main =>
    cases hmain : r.main? with
    | none => simp [step, hmain]
    | some r' => simp [step, hmain]
  | timeout =>
    change r.expire.phase = _ ∨ _ ∨ r.expire.phase = _ ∨ _ ∧ _ ∧ _ ∧ r.expire.phase = _
    unfold expire
    split
    · exact .inr (.inr (.inl rfl))
    · -- the time is over while the pool is busy
      next hphase hmain =>
      have hbusy : r.pool.isIdle = false := by simpa [main?, hphase] using hmain
      exact .inr (.inr (.inr ⟨rfl, hphase, hbusy, rfl⟩))
    · exact .inl rfl
  | stop =>
    change r.requestStop.phase = _ ∨ _ ∨ r.requestStop.phase = _ ∨ _
    unfold requestStop
    split
    · exact .inr (.inr (.inl rfl))
    · exact .inl rfl
  | reader w n =>
    change (r.stepReader w n).phase = r.phase ∨ _
    unfold stepReader
    split
    · exact .inl rfl
    · dsimp only
      rw [apply_eq]
      exact .inl rfl
  | _ => exact .inl rfl

lemma gives_up (ho : r.Orderly) {e : Event} (h : (r.step e).phase = .counting false) :
    r.phase = .counting false ∨ e = .timeout ∧ r.phase = .waiting ∧ r.stragglers ≠ [] := by
  rcases r.phase_step e with hsame | ⟨-, hmain⟩ | hwaiting | ⟨rfl, hphase, hbusy, -⟩
  · exact .inl (hsame.symm.trans h)
  · -- the registering thread does not give up by itself
    have honward := Onward.of_main? hmain
    generalize r.step e = s at honward h hmain
    cases honward with
    | busy hphase hbusy => simp [main?, hphase, hbusy] at hmain
    | _ => simp [fail, halt] at h
  · simp [hwaiting] at h
  · -- the pool was busy, so somebody was left
    refine .inr ⟨rfl, hphase, fun hnil => ?_⟩
    have hzero : r.pool.pending = 0 := ho.balanced.trans (congrArg List.length hnil)
    simp [WorkerPool.isIdle, hzero] at hbusy

lemma tells_count (ho : r.Orderly) {e : Event} {n : ℕ} (h : (r.step e).phase.missed? = some n) :
    r.phase.missed? = some n ∨
      e = .main ∧ r.phase = .counting false ∧ n = r.stragglers.length := by
  rcases r.phase_step e with hsame | ⟨rfl, hmain⟩ | hwaiting | ⟨-, -, -, hgiven⟩
  · exact .inl (hsame ▸ h)
  · have honward := Onward.of_main? hmain
    generalize r.step .main = s at honward h
    -- the number is told where the stragglers are counted
    cases honward with
    | @count exited hphase =>
      cases exited with
      | true => simp [Phase.missed?] at h
      | false =>
        obtain rfl : r.pool.pending = n := by simpa [Phase.missed?] using h
        exact .inr ⟨rfl, hphase, ho.balanced⟩
    | @destroy exited _ hphase | @join exited _ hphase | @release exited _ hphase =>
      cases exited <;> simp_all [Phase.missed?]
    | _ => simp [fail, halt, Phase.missed?] at h
  · simp [hwaiting, Phase.missed?] at h
  · simp [hgiven, Phase.missed?] at h

lemma exists_givenUp (ho : r.Orderly) (hup : r.phase = .up) {es : List Event}
    (h : (r.run es).phase = .counting false) :
    ∃ waited between, es = waited ++ .timeout :: between ∧ (r.run waited).phase = .waiting ∧
      (r.run waited).stragglers ≠ [] := by
  induction es using List.reverseRecOn with
  | nil => simp [hup] at h
  | append_singleton es e ih =>
    rw [run_append, run_cons, run_nil] at h
    rcases gives_up (ho.run es) h with hearlier | ⟨rfl, hrest⟩
    · obtain ⟨waited, between, rfl, hrest⟩ := ih hearlier
      exact ⟨waited, between ++ [e], by simp, hrest⟩
    · exact ⟨es, [], rfl, hrest⟩

lemma exists_counted (ho : r.Orderly) (hup : r.phase = .up) {es : List Event} {n : ℕ}
    (h : (r.run es).phase.missed? = some n) :
    ∃ before later, es = before ++ .main :: later ∧ (r.run before).phase = .counting false ∧
      n = (r.run before).stragglers.length := by
  induction es using List.reverseRecOn with
  | nil => simp [hup, Phase.missed?] at h
  | append_singleton es e ih =>
    rw [run_append, run_cons, run_nil] at h
    rcases tells_count (ho.run es) h with hearlier | ⟨rfl, hrest⟩
    · obtain ⟨before, later, rfl, hrest⟩ := ih hearlier
      exact ⟨before, later ++ [e], by simp, hrest⟩
    · exact ⟨es, [], rfl, hrest⟩

lemma missed?_of_stopResult {p : Phase} {n : ℕ} (h : stopResult p = .error (.stopTimeout n)) :
    p.missed? = some n := by
  unfold stopResult at h
  split at h
  · obtain rfl : _ = n := by simpa using h
    rfl
  · cases h

/-- **A stop that reports a timeout has given up while readers were left, and tells how many of
them were left when it counted them.** They are fewer by those that have exited between the two; no
reader is counted that had exited when the stop gave up, and none twice. A stop that finds that all
readers have exited reports no timeout. -/
theorem stop_timeout_counts {r : Relay σ} (h : r.Poised) {before : List Event}
    (hup : (r.run before).phase = .up) {after : List Event} {n : ℕ}
    (htimeout : stopResult ((r.run before).run after).phase = .error (.stopTimeout n)) :
    let up := r.run before
    ∃ waited between later, after = waited ++ .timeout :: (between ++ .main :: later) ∧
      let given := up.run waited
      let counted := (given.step .timeout).run between
      given.phase = .waiting ∧ counted.phase = .counting false ∧
      (∀ es, es <+: waited → (up.run es).stragglers ≠ []) ∧
      (given.stragglers.Nodup ∧ (∀ i ∈ given.stragglers, i < r.readers.length) ∧
        ∀ i x, given.readers[i]? = some x → x.stage ≠ .gone → i ∈ given.stragglers) ∧
      given.stragglers.Perm ((given.step .timeout).exits between ++ counted.stragglers) ∧
      n = counted.stragglers.length := by
  intro up
  have ho : up.Orderly := h.orderly.run before
  have hlate : up.phase.isEarly = false := by rw [show up.phase = .up from hup]; rfl
  -- back from the number: where it was counted, and before that where the stop gave up
  obtain ⟨es, later, rfl, hcounting, hn⟩ := exists_counted ho hup (missed?_of_stopResult htimeout)
  obtain ⟨waited, between, rfl, hwaiting, hleft⟩ := exists_givenUp ho hup hcounting
  rw [run_append, run_cons] at hcounting hn
  have hogiven : (up.run waited).Orderly := ho.run waited
  have hlategiven : (up.run waited).phase.isEarly = false := (late_run hlate waited).1
  have hdistinct : (up.run waited).Distinct :=
    ((Distinct.of_poised h).run h.orderly before).run ho waited
  have hlength : (up.run waited).readers.length = r.readers.length := by
    rw [length_readers_run, length_readers_run]
  refine ⟨waited, between, later, by simp, hwaiting, hcounting, ?_,
    ⟨hdistinct.nodup, ?_, ?_⟩, ?_, hn⟩
  · -- were nobody left at some time, then nobody would be left later
    rintro es ⟨fs, rfl⟩ hnil
    have hrun := stragglers_run (ho.run es) (late_run hlate es).1 fs
    rw [hnil] at hrun
    rw [run_append] at hleft
    exact hleft (List.append_eq_nil_iff.mp hrun.nil_eq.symm).2
  · exact fun i hi => hlength ▸ hdistinct.lt i hi
  · exact fun i x => hogiven.mem_stragglers hlategiven
  · -- those that exit in between make the difference
    have hsame := stragglers_step_of_late hogiven hlategiven .timeout
    exact hsame.trans
      (stragglers_run (hogiven.step .timeout) (late_run hlategiven [.timeout]).1 between)

/-- A reader sees that it is to stop, and exits. -/
def exitEvents (w : ℕ) : List Event :=
  [.reader w .go, .reader w (.loop (.flag false)), .reader w .go, .reader w .go, .uncount w]

/-- The time of a stop is over before a reader has seen that it is to stop. One of the two exits
before they are counted. -/
def slowEvents : List Event :=
  [.stop, .timeout] ++ exitEvents 1 ++ [.main, .main, .main, .main]

theorem stop_timeout_counts_slow :
    markedRelay.Poised ∧ (markedRelay.run startEvents).phase = .up ∧
      stopResult ((markedRelay.run startEvents).run slowEvents).phase = .error (.stopTimeout 1) ∧
      ∃ waited between later, slowEvents = waited ++ .timeout :: (between ++ .main :: later) ∧
        let given := (markedRelay.run startEvents).run waited
        given.phase = .waiting ∧ given.stragglers ≠ [] ∧
          given.stragglers.length = ((given.step .timeout).exits between).length + 1 := by
  have hpoised : markedRelay.Poised := poised_oneCpuRelay _
  have hup : (markedRelay.run startEvents).phase = .up := by decide +kernel
  have htimeout : stopResult ((markedRelay.run startEvents).run slowEvents).phase =
      .error (.stopTimeout 1) := by decide +kernel
  obtain ⟨waited, between, later, hsplit, hwaiting, -, hleft, -, hperm, hone⟩ :=
    stop_timeout_counts hpoised hup htimeout
  refine ⟨hpoised, hup, htimeout, waited, between, later, hsplit, hwaiting,
    hleft waited List.prefix_rfl, ?_⟩
  rw [hperm.length_eq, List.length_append, ← hone]

/-- The time of a stop is over before a reader has seen that it is to stop. Both exit before they
are counted. -/
def unluckyEvents : List Event :=
  [.stop, .timeout] ++ exitEvents 0 ++ exitEvents 1 ++
    [.main, .main, .leave 0, .leave 1, .main, .main]

/-- **A stop can report that no readers did not exit**: both were left when it gave up waiting, and
none was when it counted them. -/
theorem exists_timeout_of_none :
    let up := markedRelay.run startEvents
    up.phase = .up ∧ (up.run [.stop]).phase = .waiting ∧ (up.run [.stop]).stragglers = [0, 1] ∧
      (up.run [.stop, .timeout]).phase = .counting false ∧
      stopResult (up.run unluckyEvents).phase = .error (.stopTimeout 0) ∧
      (RelayError.stopTimeout 0).message = "0 readers did not exit within the stop timeout" := by
  intro up
  refine ⟨?_, ?_, ?_, ?_, ?_, ?_⟩ <;> decide +kernel

end Relay

end ProvenanceRelay
