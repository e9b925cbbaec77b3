import Mathlib
import ProvenanceRelay.Proofs.Interleaving
import ProvenanceRelay.Relay.Crew

/-!
What readers do on their own while they share one output.

What the handler keeps has no influence on a relay. So a crew goes through the states of a relay
whose handler keeps nothing, and an event passes by unless its reader has a record under way. What
is known of the turns of a relay is known of those of a crew.
-/

namespace ProvenanceRelay

variable {σ : Type}

/-! ### A relay whose handler keeps nothing -/

namespace Dispatcher

/-- The dispatcher with a handler that keeps nothing. -/
def mute (d : Dispatcher σ) : Dispatcher Unit where
  handler := { policy := d.handler.policy, respond := fun _ _ _ => () }
  names := d.names
  stats := d.stats
  state := ()

lemma mute_perform (d : Dispatcher σ) (a : Act) : (d.perform a).mute = d.mute.perform a := by
  cases a <;> rfl

end Dispatcher

namespace Relay

def mute (r : Relay σ) : Relay Unit := { r with dispatcher := r.dispatcher.mute }

variable (r : Relay σ)

lemma mute_submitNext (next : ℕ) : (r.submitNext next).mute = r.mute.submitNext next := by
  obtain ⟨cpus, pid, pidPath, readers, pool, d, files, running, acks, pidFile, phase, failure⟩ := r
  by_cases hnext : next < readers.length
  · cases hpool : pool.submit next <;> simp [submitNext, mute, hnext, hpool, fail, halt]
  · simp [submitNext, mute, hnext]

lemma mute_hear (started : ℕ) : (r.hear started).mute = r.mute.hear started := by
  obtain ⟨cpus, pid, pidPath, readers, pool, d, files, running, acks, pidFile, phase, failure⟩ := r
  by_cases hstarted : started < readers.length
  · rcases acks with _ | ⟨_ | _, acks⟩
    · by_cases htell : readers.any (·.stage.canTell) <;>
        simp [hear, mute, hstarted, anyCanTell, htell, fail, halt]
    · simp [hear, mute, hstarted]
    · simp [hear, mute, hstarted, fail, halt]
  · simp [hear, mute, hstarted]

lemma mute_writePid : r.writePid.mute = r.mute.writePid := by
  obtain ⟨cpus, pid, pidPath, readers, pool, d, files, running, acks, pidFile, phase, failure⟩ := r
  cases pidPath with
  | none => rfl
  | some path =>
    cases hcreate : PidFile.create files path pid <;> simp [writePid, mute, hcreate, fail, halt]

lemma mute_releasePid : r.releasePid.mute = r.mute.releasePid := by
  obtain ⟨cpus, pid, pidPath, readers, pool, d, files, running, acks, pidFile, phase, failure⟩ := r
  cases pidFile <;> rfl

lemma mute_main? : r.main?.map mute = r.mute.main? := by
  have hphase : r.mute.phase = r.phase := rfl
  unfold main?
  rw [hphase]
  cases r.phase with
  | submitting next => exact congrArg some (r.mute_submitNext next)
  | awaiting started =>
    by_cases hwait : started < r.readers.length ∧ r.acks = [] ∧ r.anyCanTell = true
    · simp only [if_pos hwait]
      exact (if_pos hwait).symm
    · simp only [if_neg hwait]
      exact (congrArg some (r.mute_hear started)).trans (if_neg hwait).symm
  | writing => exact congrArg some r.mute_writePid
  | waiting =>
    have hpool : r.mute.pool = r.pool := rfl
    rw [hpool]
    cases r.pool.isIdle <;> rfl
  | joining exited lingering =>
    by_cases hjoin : r.pool.isDeserted ∨ r.pool.pending ≠ 0
    · simp only [if_pos hjoin]
      exact (if_pos hjoin).symm
    · simp only [if_neg hjoin]
      exact (if_neg hjoin).symm
  | releasing exited lingering =>
    rw [← mute_releasePid]
    rfl
  | up | counting | destroying | down => rfl

lemma mute_expire : r.expire.mute = r.mute.expire := by
  have hphase : r.mute.phase = r.phase := rfl
  unfold expire
  rw [hphase, ← mute_main?]
  cases r.phase with
  | awaiting | waiting => cases r.main? <;> rfl
  | _ => rfl

lemma mute_requestStop : r.requestStop.mute = r.mute.requestStop := by
  have hphase : r.mute.phase = r.phase := rfl
  unfold requestStop
  rw [hphase]
  cases r.phase <;> rfl

lemma mute_apply (w : ℕ) (effect : Option Reader.Effect) :
    (r.apply w effect).mute = r.mute.apply w effect := by
  rcases effect with _ | (a | _ | _)
  · rfl
  · rw [apply, apply, mute, Dispatcher.mute_perform]
    rfl
  · rfl
  · rfl

lemma mute_stepReader (w : ℕ) (n : Reader.News) :
    (r.stepReader w n).mute = r.mute.stepReader w n := by
  have hreader : r.mute.readerOf? w = r.readerOf? w := rfl
  unfold stepReader
  rw [hreader]
  cases r.readerOf? w with
  | none => rfl
  | some ix => exact mute_apply _ w _

lemma mute_step (e : Event) : (r.step e).mute = r.mute.step e := by
  cases e with
  | main =>
    rw [step, step, ← mute_main?]
    cases r.main? <;> rfl
  | timeout => exact r.mute_expire
  | stop => exact r.mute_requestStop
  | reader w n => exact r.mute_stepReader w n
  | take w | uncount w | leave w => rfl

end Relay

/-! ### Turns among handovers -/

def Act.handled? : Act → Option Payload
  | .call (.handle p) => some p
  | _ => none

lemma Act.eq_of_handled? {a : Act} {p : Payload} (h : a.handled? = some p) :
    a = .call (.handle p) := by
  rcases a with _ | _ | (_ | _ | _ | _ | q)
  case call.handle => rw [Option.some.inj h]
  all_goals cases h

namespace Crew

open Relay (Turn actsOf takenOf turnsOf)
open Output Output.JsonLines

/-- Nothing fails in an event. -/
def Event.isSmooth : Event → Bool
  | .relay e => e.isSmooth
  | .handover _ => true

/-- What becomes of an event: the relay takes it unless it has to wait. -/
def passing? (c : Crew) : Event → Option Relay.Event
  | .relay e => if c.isBusy e then none else some e
  | .handover _ => none

def passed (c : Crew) : List Event → List Relay.Event
  | [] => []
  | e :: es => (c.passing? e).toList ++ passed (c.step e) es

/-- The turn that an event is, if it is one. -/
def turn? (c : Crew) (e : Event) : Option Turn := (c.passing? e).bind c.relay.turn?

def turns (c : Crew) : List Event → List Turn
  | [] => []
  | e :: es => (c.turn? e).toList ++ turns (c.step e) es

def policy (c : Crew) : Policy := c.relay.dispatcher.handler.policy

variable {c : Crew}

lemma handed?_of_turn? {e : Relay.Event} {t : Turn} (h : c.relay.turn? e = some t) :
    c.handed? e = ((t.act? c.policy).bind Act.handled?).map fun p => (t.number, p) := by
  cases e with
  | reader w n =>
    obtain ⟨⟨i, x⟩, hreader, rfl⟩ := Option.map_eq_some_iff.mp h
    simp only [handed?, hreader, Turn.act?, Reader.actOf?, policy]
    rcases (x.step c.relay.dispatcher.handler.policy (c.relay.see n)).2 with _ | (a | _ | _)
    · rfl
    · rcases a with _ | _ | (_ | _ | _ | _ | p) <;> rfl
    · rfl
    · rfl
  | _ => cases h

lemma handed?_of_not_turn {e : Relay.Event} (h : c.relay.turn? e = none) : c.handed? e = none := by
  cases e with
  | reader w n =>
    have hnone : c.relay.readerOf? w = none := by simpa [Relay.turn?] using h
    simp [handed?, hnone]
  | _ => rfl

lemma exists_turn_of_handed? {e : Relay.Event} {ip : ℕ × Payload} (h : c.handed? e = some ip) :
    ∃ t p, c.relay.turn? e = some t ∧ t.act? c.policy = some (.call (.handle p)) ∧
      ip = (t.number, p) := by
  cases hturn : c.relay.turn? e with
  | none =>
    rw [handed?_of_not_turn hturn] at h
    cases h
  | some t =>
    rw [handed?_of_turn? hturn] at h
    obtain ⟨p, hp, rfl⟩ := Option.map_eq_some_iff.mp h
    obtain ⟨a, ha, hp⟩ := Option.bind_eq_some_iff.mp hp
    obtain rfl := Act.eq_of_handled? hp
    exact ⟨t, p, rfl, ha, rfl⟩

lemma isBusy_of_turn? {e : Relay.Event} {t : Turn} (h : c.relay.turn? e = some t) :
    c.isBusy e = (c.handovers t.number).isSome := by
  cases e with
  | reader w n =>
    obtain ⟨⟨i, x⟩, hreader, rfl⟩ := Option.map_eq_some_iff.mp h
    simp [isBusy, hreader]
  | _ => cases h

/-- What a step can do. -/
inductive Move (c : Crew) : Option Turn → Option (ℕ × Line) → Crew → Prop
  | rest : c.Move none none c
  /-- No reader goes on. -/
  | quiet {r : Relay JsonLines} (step : c.relay.Quiet r) : c.Move none none { c with relay := r }
  /-- A reader goes on, and hands nothing over. -/
  | turn {t : Turn} {r : Relay JsonLines}
    (free : c.handovers t.number = none)
    (step : c.relay.TurnStep t r)
    (plain : (t.act? c.policy).bind Act.handled? = none) :
      c.Move (some t) none { c with relay := r }
  /-- A reader comes to hand over a record. -/
  | depart {t : Turn} {r : Relay JsonLines} {p : Payload}
    (free : c.handovers t.number = none)
    (step : c.relay.TurnStep t r)
    (act : t.act? c.policy = some (.call (.handle p))) :
      c.Move (some t) none
        ({ c with relay := { r with dispatcher := c.relay.dispatcher } }.place t.number
          (some (.start c.resolve p)))
  /-- A reader goes on with its handover. -/
  | handover {i : ℕ} {h : Handover} (underway : c.handovers i = some h) :
      c.Move none ((h.ended? c.desk).map fun l => (i, l))
        ((c.setDesk (h.advance c.names i c.desk).1).place i
          (h.advance c.names i c.desk).2)

lemma move (c : Crew) (e : Event) : c.Move (c.turn? e) (c.ended? e) (c.step e) := by
  cases e with
  | relay e =>
    simp only [turn?, passing?, ended?, step, stepRelay]
    cases hturn : c.relay.turn? e with
    | none =>
      rw [handed?_of_not_turn hturn]
      split
      · exact .rest
      · simpa [hturn] using Move.quiet (Relay.Quiet.step hturn)
    | some t =>
      rw [isBusy_of_turn? hturn]
      cases hfree : c.handovers t.number with
      | some h => exact .rest
      | none =>
        have hstep := Relay.TurnStep.of_turn? hturn
        simp only [Option.isSome_none, Bool.false_eq_true, if_false, Option.bind_some, hturn]
        rw [handed?_of_turn? hturn]
        cases hact : (t.act? c.policy).bind Act.handled? with
        | none => exact .turn hfree hstep hact
        | some p =>
          obtain ⟨a, ha, hp⟩ := Option.bind_eq_some_iff.mp hact
          exact .depart hfree hstep (Act.eq_of_handled? hp ▸ ha)
  | handover i =>
    simp only [turn?, passing?, ended?, step, stepHandover]
    cases h : c.handovers i with
    | none => exact .rest
    | some h' => exact .handover h

/-- A handover that has yet to begin leaves nothing behind. -/
lemma mute_of_handed {r : Relay JsonLines} {t : Turn} {p : Payload}
    (hstep : c.relay.TurnStep t r) (hact : t.act? c.policy = some (.call (.handle p))) :
    ({ r with dispatcher := c.relay.dispatcher } : Relay JsonLines).mute = r.mute := by
  have hsame : r.dispatcher.mute = c.relay.dispatcher.mute := by
    rw [hstep.dispatcher, ← policy, hact]
    rfl
  rw [Relay.mute, Relay.mute, hsame]

/-- But for what the handler keeps, the relay goes on as if there were no handovers. -/
lemma mute_step (c : Crew) (e : Event) :
    (c.step e).relay.mute = c.relay.mute.run (c.passing? e).toList := by
  cases e with
  | relay e =>
    simp only [step, stepRelay, passing?]
    split
    · rfl
    · cases hhanded : c.handed? e with
      | none => exact c.relay.mute_step e
      | some ip =>
        obtain ⟨t, p, hturn, hact, rfl⟩ := exists_turn_of_handed? hhanded
        exact (mute_of_handed (Relay.TurnStep.of_turn? hturn) hact).trans (c.relay.mute_step e)
  | handover i =>
    simp only [step, stepHandover, passing?]
    cases c.handovers i <;> rfl

lemma mute_run (c : Crew) (es : List Event) :
    (c.run es).relay.mute = c.relay.mute.run (c.passed es) := by
  induction es generalizing c with
  | nil => rfl
  | cons e es ih => rw [run_cons, ih, mute_step, passed, Relay.run_append]

lemma turns_append (c : Crew) (es fs : List Event) :
    c.turns (es ++ fs) = c.turns es ++ (c.run es).turns fs := by
  induction es generalizing c with
  | nil => rfl
  | cons e es ih => rw [List.cons_append, turns, turns, ih, List.append_assoc, run_cons]

lemma turn?_mute (r : Relay JsonLines) (e : Relay.Event) : r.mute.turn? e = r.turn? e := by
  cases e with
  | reader w n => rcases n with _ | (_ | _ | _ | _) | _ | _ <;> rfl
  | _ => rfl

lemma turns_eq (c : Crew) (es : List Event) : c.turns es = c.relay.mute.turns (c.passed es) := by
  induction es generalizing c with
  | nil => rfl
  | cons e es ih =>
    rw [turns, ih, mute_step, passed, turn?]
    cases c.passing? e with
    | none => rfl
    | some e =>
      rw [Option.bind_some, ← turn?_mute]
      rfl

/-! ### What each reader does -/

lemma isSmooth_passed (c : Crew) {es : List Event} (hes : ∀ e ∈ es, e.isSmooth) :
    ∀ e ∈ c.passed es, e.isSmooth := by
  induction es generalizing c with
  | nil => simp [passed]
  | cons e es ih =>
    intro f hf
    rcases List.mem_append.mp hf with hf | hf
    · have he := hes e (by simp)
      cases e with
      | relay e =>
        simp only [passing?, Option.mem_toList] at hf
        split at hf
        · cases hf
        · exact Option.some.inj hf ▸ he
      | handover i => simp [passing?] at hf
    · exact ih (c.step e) (fun g hg => hes g (by simp [hg])) f hf

/-- Each reader of a crew lives through a run of its own. -/
lemma reader_run (c : Crew) (es : List Event) {i : ℕ} {x : Reader}
    (hx : c.relay.readers[i]? = some x) :
    let ts := turnsOf i (c.turns es)
    let ns := ts.map Turn.news
    (c.run es).relay.readers[i]? = some (x.run c.policy ns) ∧
      actsOf c.policy ts = x.acts c.policy ns ∧ takenOf ts = x.consumed c.policy ns := by
  have h := c.relay.mute.reader_run (c.passed es) hx
  rw [← mute_run, ← turns_eq] at h
  exact h

lemma number_lt (c : Crew) (es : List Event) :
    ∀ t ∈ c.turns es, t.number < c.relay.readers.length := by
  rw [turns_eq]
  exact c.relay.mute.number_lt (c.passed es)

/-- The names are those that the acts of all turns bind, in the order of the turns. -/
lemma names_run (c : Crew) (es : List Event) :
    (c.run es).names = (c.relay.dispatcher.mute.run (actsOf c.policy (c.turns es))).names := by
  have h := c.relay.mute.dispatcher_run (c.passed es)
  rw [← mute_run, ← turns_eq] at h
  exact congrArg Dispatcher.names h

/-- What is picked of the acts of a reader that has gone comes from the records of its channel. -/
lemma filterMap_acts_of_gone {α : Type} {f : Act → Option α} (hdrains : f (.count .drains) = none)
    (hinit : f (.call .init) = none) {c : Crew} {es : List Event} (hes : ∀ e ∈ es, e.isSmooth)
    {i : ℕ} {x : Reader} (hx : c.relay.readers[i]? = some x) (hfresh : x.Fresh)
    (hgone : ∀ y, (c.run es).relay.readers[i]? = some y → y.stage = .gone) :
    (actsOf c.policy (turnsOf i (c.turns es))).filterMap f =
      ((Reader.records x.channel.shape.size (takenOf (turnsOf i (c.turns es)))).flatMap
        (Dispatch.acts c.policy x.channel.shape)).filterMap f := by
  obtain ⟨hrun, hacts, htaken⟩ := c.reader_run es hx
  rw [hacts, htaken]
  refine Reader.Fresh.filterMap_acts_of_gone hdrains hinit hfresh ?_ ?_ (hgone _ hrun)
  · intro n hn
    obtain ⟨t, ht, rfl⟩ := List.mem_map.mp hn
    rw [turns_eq] at ht
    exact c.relay.mute.isSmooth_turns (c.isSmooth_passed hes) t (List.mem_filter.mp ht).1
  · rw [turns_eq]
    exact c.relay.mute.staysCleared_turnsOf (c.passed es) i

end Crew

end ProvenanceRelay
