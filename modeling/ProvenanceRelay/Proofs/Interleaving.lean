import Mathlib
import ProvenanceRelay.Proofs.ReaderRun
import ProvenanceRelay.Relay
import ProvenanceRelay.Trace

/-!
A relay's readers in any order.

Whatever the order in which the threads of a relay go on, each reader lives through a run of its
own: it learns what its turns tell it and nothing of the others. The acts of all turns are those
that the dispatcher performs. So neither the calls of a reader nor what is counted in the end
depend on the order.
-/

namespace ProvenanceRelay.Relay

open Reader (News StaysCleared records)

variable {σ : Type}

/-! ### Turns -/

/-- Nothing fails in an event. -/
def Event.isSmooth : Event → Bool
  | .reader _ n => n.isSmooth
  | _ => true

/-- A step of a reader: its number, what it is before the step, and what it learns. -/
structure Turn where
  number : ℕ
  reader : Reader
  news : News

def Turn.act? (policy : Policy) (t : Turn) : Option Act := t.reader.actOf? policy t.news

/-- The bytes that are taken from the reader's channel. -/
def Turn.taken (t : Turn) : Bytes := t.reader.taken t.news

def turn? (r : Relay σ) : Event → Option Turn
  | .reader w n => (r.readerOf? w).map fun (i, x) => ⟨i, x, r.see n⟩
  | _ => none

def turns (r : Relay σ) : List Event → List Turn
  | [] => []
  | e :: es => (r.turn? e).toList ++ turns (r.step e) es

def turnsOf (i : ℕ) (ts : List Turn) : List Turn := ts.filter fun t => t.number = i

def actsOf (policy : Policy) (ts : List Turn) : List Act := ts.filterMap (Turn.act? policy)

def takenOf (ts : List Turn) : Bytes := ts.flatMap Turn.taken

lemma actsOf_cons (policy : Policy) (t : Turn) (ts : List Turn) :
    actsOf policy (t :: ts) = (t.act? policy).toList ++ actsOf policy ts := by
  cases h : t.act? policy <;> simp [actsOf, h]

/-! ### Steps that are no turns -/

/-- Nothing comes from a reader between two states, and the running flag is not set. -/
structure Quiet (r r' : Relay σ) : Prop where
  readers : r'.readers = r.readers
  dispatcher : r'.dispatcher = r.dispatcher
  running : r'.running = true → r.running = true

namespace Quiet

variable {r r' : Relay σ}

lemma refl : r.Quiet r := ⟨rfl, rfl, id⟩

lemma halt : r.Quiet r.halt := ⟨rfl, rfl, fun h => by cases h⟩

lemma fail (e : RelayError) : r.Quiet (r.fail e) := ⟨rfl, rfl, fun h => by cases h⟩

lemma submitNext (next : ℕ) : r.Quiet (r.submitNext next) := by
  unfold Relay.submitNext
  split
  · split
    · exact ⟨rfl, rfl, id⟩
    · exact fail _
  · exact ⟨rfl, rfl, id⟩

lemma hear (started : ℕ) : r.Quiet (r.hear started) := by
  unfold Relay.hear
  split
  · split
    · exact ⟨rfl, rfl, id⟩
    · exact ⟨rfl, rfl, fun h => by cases h⟩
    · split
      · exact refl
      · exact fail _
  · exact ⟨rfl, rfl, id⟩

lemma writePid : r.Quiet r.writePid := by
  unfold Relay.writePid
  split
  · exact ⟨rfl, rfl, id⟩
  · split
    · exact ⟨rfl, rfl, id⟩
    · exact fail _

lemma releasePid : r.Quiet r.releasePid := by
  unfold Relay.releasePid
  split <;> exact ⟨rfl, rfl, id⟩

lemma main (h : r.main? = some r') : r.Quiet r' := by
  unfold Relay.main? at h
  split at h
  · exact Option.some.inj h ▸ submitNext _
  · split at h
    · cases h
    · exact Option.some.inj h ▸ hear _
  · exact Option.some.inj h ▸ writePid
  · cases h
  · split at h
    · exact Option.some.inj h ▸ ⟨rfl, rfl, id⟩
    · cases h
  · exact Option.some.inj h ▸ ⟨rfl, rfl, id⟩
  · exact Option.some.inj h ▸ ⟨rfl, rfl, id⟩
  · split at h
    · exact Option.some.inj h ▸ ⟨rfl, rfl, id⟩
    · cases h
  · obtain ⟨hreaders, hdispatcher, hrunning⟩ := releasePid (r := r)
    exact Option.some.inj h ▸ ⟨hreaders, hdispatcher, hrunning⟩
  · cases h

lemma expire : r.Quiet r.expire := by
  unfold Relay.expire
  split
  · exact fail _
  · exact ⟨rfl, rfl, id⟩
  · exact refl

lemma requestStop : r.Quiet r.requestStop := by
  unfold Relay.requestStop
  split
  · exact halt
  · exact refl

lemma step {e : Event} (h : r.turn? e = none) : r.Quiet (r.step e) := by
  cases e with
  | main =>
    cases hmain : r.main? with
    | none => simpa [Relay.step, hmain] using refl
    | some r' => simpa [Relay.step, hmain] using main hmain
  | timeout => exact expire
  | stop => exact requestStop
  | take w => exact ⟨rfl, rfl, id⟩
  | reader w n =>
    have hnone : r.readerOf? w = none := by simpa [turn?] using h
    simpa [Relay.step, stepReader, hnone] using refl
  | uncount w => exact ⟨rfl, rfl, id⟩
  | leave w => exact ⟨rfl, rfl, id⟩

end Quiet

/-! ### Turns as steps -/

section

variable {r : Relay σ} {e : Event} {t : Turn}

lemma eq_running_of_see (r : Relay σ) {n : News} {b : Bool} (h : r.see n = .loop (.flag b)) :
    b = r.running := by
  rcases n with _ | (_ | _ | _ | _) | _ | _ <;> simp [see] at h
  exact h.symm

/-- What a turn does: the reader takes its step, and the dispatcher performs the act. -/
structure TurnStep (r : Relay σ) (t : Turn) (r' : Relay σ) : Prop where
  reader : r.readers[t.number]? = some t.reader
  readers : r'.readers =
    r.readers.set t.number (t.reader.step r.dispatcher.handler.policy t.news).1
  dispatcher : r'.dispatcher =
    r.dispatcher.run (t.act? r.dispatcher.handler.policy).toList
  running : r'.running = r.running
  flag : ∀ b, t.news = .loop (.flag b) → b = r.running

lemma TurnStep.of_turn? (h : r.turn? e = some t) : r.TurnStep t (r.step e) := by
  cases e with
  | reader w n =>
    obtain ⟨⟨i, x⟩, hreader, rfl⟩ := Option.map_eq_some_iff.mp h
    have hx : r.readers[i]? = some x := by
      unfold readerOf? at hreader
      split at hreader
      · obtain ⟨y, hy, heq⟩ := Option.map_eq_some_iff.mp hreader
        obtain ⟨rfl, rfl⟩ := Prod.mk.inj heq
        exact hy
      · cases hreader
    have hstep : r.step (.reader w n) =
        { r with readers := r.readers.set i (x.step r.dispatcher.handler.policy (r.see n)).1 }.apply
          w (x.step r.dispatcher.handler.policy (r.see n)).2 := by
      simp only [step, stepReader, hreader]
    refine ⟨hx, ?_, ?_, ?_, ?_⟩
    · rw [hstep]
      unfold apply
      split <;> rfl
    · rw [hstep]
      unfold apply Turn.act? Reader.actOf?
      dsimp only
      split <;> simp [*]
    · rw [hstep]
      unfold apply
      split <;> rfl
    · exact fun b hb => r.eq_running_of_see hb
  | _ => cases h

end

lemma policy_step (r : Relay σ) (e : Event) :
    (r.step e).dispatcher.handler = r.dispatcher.handler := by
  cases h : r.turn? e with
  | none => rw [(Quiet.step h).dispatcher]
  | some t => rw [(TurnStep.of_turn? h).dispatcher, Dispatcher.handler_run]

lemma dispatcher_run (r : Relay σ) (es : List Event) :
    (r.run es).dispatcher =
      r.dispatcher.run (actsOf r.dispatcher.handler.policy (r.turns es)) := by
  induction es generalizing r with
  | nil => rfl
  | cons e es ih =>
    rw [run_cons, ih, r.policy_step e, turns]
    cases h : r.turn? e with
    | none => rw [(Quiet.step h).dispatcher, Option.toList_none, List.nil_append]
    | some t =>
      rw [(TurnStep.of_turn? h).dispatcher, Option.toList_some, List.singleton_append, actsOf_cons,
        Dispatcher.run_append]

/-- **Each reader lives through a run of its own**, in which it learns what its turns tell it. -/
lemma reader_run (r : Relay σ) (es : List Event) {i : ℕ} {x : Reader}
    (hx : r.readers[i]? = some x) :
    let policy := r.dispatcher.handler.policy
    let ts := turnsOf i (r.turns es)
    let ns := ts.map Turn.news
    (r.run es).readers[i]? = some (x.run policy ns) ∧
      actsOf policy ts = x.acts policy ns ∧ takenOf ts = x.consumed policy ns := by
  induction es generalizing r x with
  | nil => exact ⟨hx, rfl, rfl⟩
  | cons e es ih =>
    dsimp only
    rw [run_cons, turns]
    cases h : r.turn? e with
    | none =>
      have hquiet := Quiet.step h
      have ih' := ih (r.step e) (hquiet.readers ▸ hx)
      rwa [r.policy_step e] at ih'
    | some t =>
      obtain ⟨hreader, hreaders, -, -, -⟩ := TurnStep.of_turn? h
      by_cases hi : t.number = i
      · -- the turn is this reader's
        subst hi
        obtain rfl : t.reader = x := Option.some.inj (hreader.symm.trans hx)
        have hlt : t.number < r.readers.length := (List.getElem?_eq_some_iff.mp hx).1
        have hnext : (r.step e).readers[t.number]? =
            some (t.reader.step r.dispatcher.handler.policy t.news).1 := by
          rw [hreaders, List.getElem?_set_self hlt]
        obtain ⟨hrun, hacts, htaken⟩ := ih (r.step e) hnext
        rw [r.policy_step e] at hrun hacts htaken
        have hturns : turnsOf t.number ([t] ++ (r.step e).turns es) =
            t :: turnsOf t.number ((r.step e).turns es) := by simp [turnsOf]
        rw [Option.toList_some, hturns, actsOf_cons, hacts, List.map_cons, takenOf,
          List.flatMap_cons, ← takenOf, htaken]
        exact ⟨hrun, rfl, rfl⟩
      · -- the turn is another reader's
        have hnext : (r.step e).readers[i]? = some x := by
          rw [hreaders, List.getElem?_set_ne hi, hx]
        have ih' := ih (r.step e) hnext
        rw [r.policy_step e] at ih'
        have hturns : turnsOf i ([t] ++ (r.step e).turns es) =
            turnsOf i ((r.step e).turns es) := by simp [turnsOf, hi]
        rwa [Option.toList_some, hturns]

/-! ### The running flag -/

lemma running_step (r : Relay σ) (e : Event) (h : (r.step e).running = true) :
    r.running = true := by
  cases hturn : r.turn? e with
  | none => exact (Quiet.step hturn).running h
  | some t => exact (TurnStep.of_turn? hturn).running ▸ h

/-- Nobody finds a flag set that has been cleared. -/
lemma flag_of_not_running {r : Relay σ} (hr : r.running = false) (es : List Event) :
    ∀ t ∈ r.turns es, t.news ≠ .loop (.flag true) := by
  induction es generalizing r with
  | nil => simp [turns]
  | cons e es ih =>
    have hnext : (r.step e).running = false := by
      rw [Bool.eq_false_iff]
      exact fun h => by simp [r.running_step e h] at hr
    intro t ht
    rcases List.mem_append.mp ht with ht | ht
    · have hturn : r.turn? e = some t := by simpa using ht
      intro hflag
      have := (TurnStep.of_turn? hturn).flag true hflag
      simp [hr] at this
    · exact ih hnext t ht

lemma turns_pairwise (r : Relay σ) (es : List Event) :
    (r.turns es).Pairwise fun t u =>
      t.news = .loop (.flag false) → u.news ≠ .loop (.flag true) := by
  induction es generalizing r with
  | nil => exact List.Pairwise.nil
  | cons e es ih =>
    rw [turns]
    cases h : r.turn? e with
    | none => exact ih _
    | some t =>
      refine List.pairwise_cons.mpr ⟨fun u hu hflag => ?_, ih _⟩
      have hstep := TurnStep.of_turn? h
      have hrunning : (r.step e).running = false := by
        rw [hstep.running, ← hstep.flag false hflag]
      exact flag_of_not_running hrunning es u hu

lemma staysCleared_turnsOf (r : Relay σ) (es : List Event) (i : ℕ) :
    StaysCleared (((turnsOf i (r.turns es)).map Turn.news).filterMap News.input?) := by
  have hnews : ((turnsOf i (r.turns es)).map Turn.news).Pairwise fun m n =>
      m = .loop (.flag false) → n ≠ .loop (.flag true) :=
    List.pairwise_map.mpr ((r.turns_pairwise es).filter _)
  refine hnews.filterMap News.input? fun m n h j hj k hk hfalse htrue => ?_
  subst hfalse htrue
  exact h (News.eq_loop_of_input? hj) (News.eq_loop_of_input? hk)

/-! ### All readers together -/

lemma length_readers_step (r : Relay σ) (e : Event) :
    (r.step e).readers.length = r.readers.length := by
  cases h : r.turn? e with
  | none => rw [(Quiet.step h).readers]
  | some t => rw [(TurnStep.of_turn? h).readers, List.length_set]

lemma number_lt (r : Relay σ) (es : List Event) :
    ∀ t ∈ r.turns es, t.number < r.readers.length := by
  induction es generalizing r with
  | nil => simp [turns]
  | cons e es ih =>
    intro t ht
    rcases List.mem_append.mp ht with ht | ht
    · have hturn : r.turn? e = some t := by simpa using ht
      exact (List.getElem?_eq_some_iff.mp (TurnStep.of_turn? hturn).reader).1
    · exact r.length_readers_step e ▸ ih (r.step e) t ht

/-- What is counted in turns is the sum of what is counted in each reader's turns. -/
lemma tally_actsOf (policy : Policy) (c : Counter) {n : ℕ} {ts : List Turn}
    (hts : ∀ t ∈ ts, t.number < n) :
    tally c (actsOf policy ts) =
      ∑ i ∈ Finset.range n, tally c (actsOf policy (turnsOf i ts)) := by
  induction ts with
  | nil => simp [turnsOf, actsOf, tally]
  | cons t ts ih =>
    have hcons : ∀ i, tally c (actsOf policy (turnsOf i (t :: ts))) =
        (if t.number = i then tally c (t.act? policy).toList else 0) +
          tally c (actsOf policy (turnsOf i ts)) := by
      intro i
      by_cases hi : t.number = i
      · simp [turnsOf, hi, actsOf_cons]
      · simp [turnsOf, hi]
    have hmem : t.number ∈ Finset.range n := Finset.mem_range.mpr (hts t (by simp))
    rw [actsOf_cons, tally_append, ih fun u hu => hts u (by simp [hu]),
      Finset.sum_congr rfl fun i _ => hcons i, Finset.sum_add_distrib, Finset.sum_ite_eq,
      if_pos hmem]

lemma isSmooth_see (r : Relay σ) {n : News} (h : n.isSmooth) : (r.see n).isSmooth := by
  unfold see
  split
  · rfl
  · exact h

lemma isSmooth_turns (r : Relay σ) {es : List Event} (hes : ∀ e ∈ es, e.isSmooth) :
    ∀ t ∈ r.turns es, t.news.isSmooth := by
  induction es generalizing r with
  | nil => simp [turns]
  | cons e es ih =>
    intro t ht
    rcases List.mem_append.mp ht with ht | ht
    · have hturn : r.turn? e = some t := by simpa using ht
      have he := hes e (by simp)
      cases e with
      | reader w n =>
        obtain ⟨p, -, rfl⟩ := Option.map_eq_some_iff.mp hturn
        exact r.isSmooth_see he
      | _ => cases hturn
    · exact ih (r.step e) (fun f hf => hes f (by simp [hf])) t ht

/-! ### From the registration on -/

/-- What the relay starts with if nothing fails before the first reader. -/
lemma prepare_ok {config : RelayConfig} {online : ℕ} {pid : UInt32} {d : Dispatcher σ}
    {fs fs' : Files} {r : Relay σ} (h : prepare config online pid d fs = (fs', .ok r)) :
    r.dispatcher = d ∧ (1 ≤ r.cpus ∧ r.cpus ≤ maxCpus) ∧ (∀ x ∈ r.readers, x.Fresh) ∧
      r.readers.map (·.channel) = Channel.all config.shortPrefix config.longPrefix r.cpus := by
  unfold prepare at h
  split at h
  · cases h
  · dsimp only at h
    split at h
    · cases h
    · next hmax =>
      split at h
      · cases h
      · split at h
        · cases h
        · next pool hpool =>
          obtain ⟨-, rfl⟩ : _ ∧ _ = r := by simpa using h
          refine ⟨rfl, ⟨?_, not_lt.mp hmax⟩, ?_, ?_⟩
          · -- a pool has at least one worker
            by_contra hzero
            have hzero : config.cpus.elim online (·.toNat) = 0 :=
              Nat.lt_one_iff.mp (not_le.mp hzero)
            simp [WorkerPool.new, hzero] at hpool
          · intro x hx
            obtain ⟨c, -, rfl⟩ := List.mem_map.mp hx
            exact ⟨rfl, rfl⟩
          · simp [Function.comp_def]

/-- **Each reader makes the calls of its own channel, and the counters are sums over the channels**,
in whatever order the threads go on. -/
theorem calls_and_counts_of_run {config : RelayConfig} {online : ℕ} {pid : UInt32}
    {fs fs' : Files} (h : Handler σ) (names : NameTable) (state : σ) {r : Relay σ}
    (hprep : prepare config online pid { handler := h, names, state } fs = (fs', .ok r))
    (es : List Event) (hes : ∀ e ∈ es, e.isSmooth) (content : ℕ → Bytes)
    (hread : ∀ i < r.readers.length, takenOf (turnsOf i (r.turns es)) = content i)
    (hend : ∀ x ∈ (r.run es).readers, x.stage = .gone) :
    let start : Dispatcher σ := { handler := h, names, state }
    let channels := Channel.all config.shortPrefix config.longPrefix r.cpus
    (1 ≤ r.cpus ∧ r.cpus ≤ maxCpus ∧ r.readers.map (·.channel) = channels) ∧
      (∀ i c, channels[i]? = some c →
        calls (actsOf h.policy (turnsOf i (r.turns es))) =
          .init :: calls ((records c.shape.size (content i)).flatMap
            (Dispatch.acts h.policy c.shape))) ∧
      ∀ counter ≠ .drains, (r.run es).dispatcher.stats.get counter =
        ∑ i : Fin channels.length,
          (start.feed channels[i].shape (records channels[i].shape.size (content i))).stats.get
            counter := by
  intro start channels
  obtain ⟨hdispatcher, ⟨hone, hmax⟩, hfresh, hchannels⟩ := prepare_ok hprep
  have hpolicy : r.dispatcher.handler.policy = h.policy := by rw [hdispatcher]
  have hchannels : r.readers.map (·.channel) = channels := hchannels
  -- a reader that has gone has made the calls of its channel
  have hacts : ∀ i c, channels[i]? = some c →
      calls (actsOf h.policy (turnsOf i (r.turns es))) =
          .init :: calls ((records c.shape.size (content i)).flatMap
            (Dispatch.acts h.policy c.shape)) ∧
        ∀ counter ≠ .drains, tally counter (actsOf h.policy (turnsOf i (r.turns es))) =
          tally counter ((records c.shape.size (content i)).flatMap
            (Dispatch.acts h.policy c.shape)) := by
    intro i c hc
    rw [← hchannels, List.getElem?_map] at hc
    obtain ⟨x, hx, rfl⟩ := Option.map_eq_some_iff.mp hc
    have hi : i < r.readers.length := (List.getElem?_eq_some_iff.mp hx).1
    obtain ⟨hrun, hacts, htaken⟩ := r.reader_run es hx
    rw [hpolicy] at hrun hacts htaken
    rw [hacts, ← hread i hi, htaken]
    have hsmooth : ∀ n ∈ (turnsOf i (r.turns es)).map Turn.news, n.isSmooth := by
      intro n hn
      obtain ⟨t, ht, rfl⟩ := List.mem_map.mp hn
      exact r.isSmooth_turns hes t (List.mem_filter.mp ht).1
    exact (hfresh x (List.mem_of_getElem? hx)).acts_of_gone hsmooth (r.staysCleared_turnsOf es i)
      (hend _ (List.mem_of_getElem? hrun))
  refine ⟨⟨hone, hmax, hchannels⟩, fun i c hc => (hacts i c hc).1, fun counter hcounter => ?_⟩
  have hlength : r.readers.length = channels.length := by rw [← hchannels, List.length_map]
  -- the counts are sums over the readers, and there is one for each channel
  rw [dispatcher_run, Dispatcher.stats_run, hpolicy, tally_actsOf _ _ (r.number_lt es), hlength,
    Finset.sum_range, hdispatcher, Stats.get_init, Nat.zero_add]
  refine Finset.sum_congr rfl fun i _ => ?_
  have hi : channels[(i : ℕ)]? = some channels[i] := List.getElem?_eq_getElem i.isLt
  rw [Dispatcher.feed_eq_run, Dispatcher.stats_run, Stats.get_init, Nat.zero_add]
  exact (hacts i channels[i] hi).2 counter hcounter

/-! ### One cpu -/

def oneCpuConfig : RelayConfig where
  shortPrefix := "short"
  longPrefix := "long"
  cpus := some 1
  pidFile := none
  exclusion := none
  pinReaders := false

def oneCpuFiles : Files where
  entries := [(["short0"], .file []), (["long0"], .file [])]

def oneCpuRelay : Relay Unit where
  cpus := 1
  pid := 1
  pidPath := none
  readers := [{ channel := ⟨"short0", 0, .short⟩, perDrain := 1000 },
    { channel := ⟨"long0", 0, .long⟩, perDrain := 1000 }]
  pool := { workers := [.idle, .idle] }
  dispatcher := { handler := .ignore, state := () }
  files := oneCpuFiles

/-- The short channel gives a record and a part of one while the other reader starts, and the relay
is stopped inside the part. -/
def oneCpuEvents : List Event :=
  [.main, .main, .main, .take 0, .take 1,
    .reader 0 .go, .reader 1 .go, .reader 0 .go, .reader 0 .go, .reader 0 .go,
    .reader 0 (.loop (.flag true)), .reader 0 (.loop (.polled none)),
    .reader 0 (.loop (.read (.data (List.replicate 260 0)))),
    .reader 1 .go, .reader 1 .go, .reader 1 .go, .main, .main, .main, .main, .stop,
    .reader 1 (.loop (.flag true)), .reader 1 .go, .reader 1 .go,
    .reader 0 (.loop (.flag true)), .reader 0 .go, .reader 0 (.loop .next),
    .reader 0 .go, .reader 0 .go, .reader 0 .go, .reader 0 .go, .reader 0 .go,
    .reader 0 (.loop (.flag true)), .reader 0 .go, .reader 0 .go]

def oneCpuContent (i : ℕ) : Bytes := if i = 0 then List.replicate 260 0 else []

theorem calls_and_counts_of_run_oneCpu :
    (∀ e ∈ oneCpuEvents, e.isSmooth) ∧
      (∀ x ∈ (oneCpuRelay.run oneCpuEvents).readers, x.stage = .gone) ∧
      (∀ i < 2, takenOf (turnsOf i (oneCpuRelay.turns oneCpuEvents)) = oneCpuContent i) ∧
      calls (actsOf Handler.ignore.policy (turnsOf 0 (oneCpuRelay.turns oneCpuEvents))) =
        .init :: calls ((records 256 (oneCpuContent 0)).flatMap
          (Dispatch.acts Handler.ignore.policy .short)) := by
  have hprep : prepare oneCpuConfig 1 1 { handler := Handler.ignore, state := () } oneCpuFiles =
      (oneCpuFiles, .ok oneCpuRelay) := by cbv
  have hes : ∀ e ∈ oneCpuEvents, e.isSmooth := by decide +kernel
  have hend : ∀ x ∈ (oneCpuRelay.run oneCpuEvents).readers, x.stage = .gone := by decide +kernel
  have hread : ∀ i < 2, takenOf (turnsOf i (oneCpuRelay.turns oneCpuEvents)) = oneCpuContent i := by
    decide +kernel
  have h := calls_and_counts_of_run Handler.ignore .empty () hprep oneCpuEvents hes oneCpuContent
    hread hend
  have hchannel : (Channel.all "short" "long" 1)[0]? = some ⟨"short0", 0, .short⟩ := by
    decide +kernel
  exact ⟨hes, hend, hread, h.2.1 0 _ hchannel⟩

end ProvenanceRelay.Relay
