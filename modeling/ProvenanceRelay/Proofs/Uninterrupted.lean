import Mathlib
import ProvenanceRelay.Proofs.CrewTurns
import ProvenanceRelay.Proofs.LineOutput

/-!
Handovers that nobody interrupts.

A reader that is let go on until its record is counted does what the handler does in one call. So
whatever a relay goes through when calls are made at once, its crew can go through as well.
-/

namespace ProvenanceRelay

open Output Output.JsonLines
open Relay (Turn)

namespace Crew

variable {config : OutputConfig} {r : Relay JsonLines} {i : ℕ} {p : Payload}

/-- The relay with another state of its handler. -/
def keep (r : Relay JsonLines) (s : JsonLines) : Relay JsonLines :=
  { r with dispatcher := { r.dispatcher with state := s } }

/-- A crew in which one reader at most has a record under way. -/
def solo (config : OutputConfig) (r : Relay JsonLines) (i : ℕ) (h : Option Handover)
    (holder : Option ℕ) : Crew where
  relay := r
  resolve := config.resolveNames
  handovers j := if j = i then h else none
  holder := holder

lemma solo_none (config : OutputConfig) (r : Relay JsonLines) (i : ℕ) :
    solo config r i none none = ofRelay config r := by
  simp [solo, ofRelay]

lemma step_solo (config : OutputConfig) (r : Relay JsonLines) (i : ℕ) (h : Handover)
    (holder : Option ℕ) :
    (solo config r i (some h) holder).step (.handover i) =
      let (d, h') := h.advance r.dispatcher.names i ⟨r.dispatcher.state, holder⟩
      solo config (keep r d.state) i h' d.holder := by
  have hunderway : (solo config r i (some h) holder).handovers i = some h := if_pos rfl
  simp only [step, stepHandover, hunderway]
  simp only [solo, place, setDesk, keep, desk, names, Crew.mk.injEq, true_and, and_true]
  refine funext fun j => ?_
  split <;> rfl

def goOn (i k : ℕ) : List Event := List.replicate k (.handover i)

lemma run_goOn_succ (c : Crew) (i k : ℕ) :
    c.run (goOn i (k + 1)) = (c.step (.handover i)).run (goOn i k) := rfl

lemma line_cons (w : LineWriter) (t : String) (ts : List String) :
    w.line (t :: ts) =
      match w.part t with
      | (w, true) => w.line ts
      | (w, false) => (w, false) := by
  unfold LineWriter.line
  rw [LineWriter.parts]
  rcases w.part t with ⟨w', ok⟩
  cases ok <;> rfl

lemma exists_run_writing (config : OutputConfig) (r : Relay JsonLines) (i : ℕ) (l : Line)
    (ts : List String) (s : JsonLines) :
    ∃ k, (solo config (keep r s) i (some (.writing l ts)) (some i)).run (goOn i k) =
      solo config (keep r { s with out := (s.out.line ts).1 }) i
        (some (.counting l (s.out.line ts).2)) none := by
  induction ts generalizing s with
  | nil => exact ⟨1, step_solo _ _ _ _ _⟩
  | cons t ts ih =>
    rw [line_cons]
    cases hpart : s.out.part t with
    | mk out ok =>
      have hstep := step_solo config (keep r s) i (.writing l (t :: ts)) (some i)
      simp only [Handover.advance, keep, hpart] at hstep
      cases ok with
      | true =>
        obtain ⟨k, hk⟩ := ih { s with out }
        exact ⟨k + 1, by rw [run_goOn_succ]; exact hstep ▸ hk⟩
      | false => exact ⟨1, hstep⟩

lemma run_goOn_add (c : Crew) (i j k : ℕ) :
    c.run (goOn i (j + k)) = (c.run (goOn i j)).run (goOn i k) := by
  rw [goOn, List.replicate_add, run_append]
  rfl

lemma emit_eq (s : JsonLines) (resolve : Bool) (names : NameTable) (p : Payload) :
    s.emit resolve names p =
      let (out, ok) := s.out.line (lineOf resolve names p).json.pieces
      { out, metrics := if ok then s.metrics.write p.kind else s.metrics.fail } := by
  rw [JsonLines.emit, lineJson_eq]
  rcases s.out.line (lineOf resolve names p).json.pieces with ⟨out, ok⟩
  cases ok <;> rfl

lemma exists_run_waiting (config : OutputConfig) (r : Relay JsonLines) (i : ℕ) (resolve : Bool)
    (names : NameTable) (p : Payload) :
    ∃ k, (solo config r i (some (.waiting (lineOf resolve names p))) none).run (goOn i k) =
      ofRelay config (keep r (r.dispatcher.state.emit resolve names p)) := by
  rw [emit_eq]
  set l := lineOf resolve names p
  obtain ⟨k, hk⟩ := exists_run_writing config r i l l.json.pieces r.dispatcher.state
  generalize r.dispatcher.state.out.line l.json.pieces = w at hk ⊢
  obtain ⟨out, ok⟩ := w
  have hfirst : (solo config r i (some (.waiting l)) none).run (goOn i 1) =
      solo config (keep r r.dispatcher.state) i (some (.writing l l.json.pieces)) (some i) :=
    step_solo _ _ _ _ _
  have hlast := step_solo config (keep r { r.dispatcher.state with out }) i (.counting l ok) none
  refine ⟨1 + (k + 1), ?_⟩
  rw [run_goOn_add, hfirst, run_goOn_add, hk, ← solo_none config _ i]
  exact hlast

/-- A handover that nobody interrupts does what a call does. -/
lemma exists_run_start (hhandler : r.dispatcher.handler = handler config) (i : ℕ) (p : Payload) :
    ∃ k, (solo config r i (some (.start config.resolveNames p)) none).run (goOn i k) =
      ofRelay config { r with dispatcher := r.dispatcher.perform (.call (.handle p)) } := by
  have hperform : ({ r with dispatcher := r.dispatcher.perform (.call (.handle p)) } :
      Relay JsonLines) =
        keep r (r.dispatcher.state.emit config.resolveNames r.dispatcher.names p) := by
    rw [perform_call hhandler]
    rfl
  have hwaiting := exists_run_waiting config r i config.resolveNames r.dispatcher.names p
  rw [hperform]
  unfold Handover.start
  split
  · -- the ends of a relation are looked up first
    next rel =>
    cases hresolve : config.resolveNames with
    | true =>
      obtain ⟨k, hk⟩ := hwaiting
      rw [hresolve] at hk
      refine ⟨k + 1 + 1, ?_⟩
      rw [run_goOn_succ, if_pos rfl, step_solo, run_goOn_succ]
      dsimp only [Handover.advance]
      rw [step_solo]
      exact hk
    | false =>
      rw [hresolve] at hwaiting
      exact hwaiting
  · -- any other record is handed over as it is
    next hother =>
    have hline : lineOf config.resolveNames r.dispatcher.names p = { payload := p } := by
      rcases p with q | q
      · cases q with
        | relation rel => exact absurd rfl (hother rel)
        | _ => rfl
      · rfl
    rwa [hline] at hwaiting

lemma turns_goOn (c : Crew) (i k : ℕ) : c.turns (goOn i k) = [] := by
  induction k generalizing c with
  | zero => rfl
  | succ k ih => exact ih _

lemma isSmooth_goOn (i k : ℕ) : ∀ e ∈ goOn i k, e.isSmooth := by
  intro e he
  obtain rfl := List.eq_of_mem_replicate he
  rfl

/-- An event of the relay, with the handover that it may bring about. -/
lemma exists_run_event (hhandler : r.dispatcher.handler = handler config) (e : Relay.Event) :
    ∃ i k, (ofRelay config r).run (.relay e :: goOn i k) = ofRelay config (r.step e) ∧
      (ofRelay config r).turns (.relay e :: goOn i k) = (r.turn? e).toList := by
  set c := ofRelay config r with hc
  have hbusy : c.isBusy e = false := by
    cases e with
    | reader w n =>
      simp only [isBusy]
      split <;> rfl
    | _ => rfl
  have hturns : ∀ i k, c.turns (.relay e :: goOn i k) = (r.turn? e).toList := by
    intro i k
    rw [turns, turns_goOn, List.append_nil, turn?, passing?, hbusy]
    rfl
  cases hhanded : c.handed? e with
  | none =>
    refine ⟨0, 0, ?_, hturns 0 0⟩
    show c.stepRelay e = _
    rw [stepRelay, hbusy, hhanded]
    rfl
  | some ip =>
    obtain ⟨t, p, hturn, hact, rfl⟩ := exists_turn_of_handed? hhanded
    have hperformed : (r.step e).dispatcher = r.dispatcher.perform (.call (.handle p)) :=
      (Relay.TurnStep.of_turn? hturn).dispatcher.trans
        (congrArg (fun a? : Option Act => r.dispatcher.run a?.toList) hact)
    have hstep : c.step (.relay e) = solo config { r.step e with dispatcher := r.dispatcher }
        t.number (some (.start config.resolveNames p)) none := by
      show c.stepRelay e = _
      rw [stepRelay, hbusy, hhanded]
      rfl
    obtain ⟨k, hk⟩ := exists_run_start (r := { r.step e with dispatcher := r.dispatcher }) hhandler
      t.number p
    refine ⟨t.number, k, ?_, hturns _ _⟩
    rw [run_cons, hstep, hk]
    exact congrArg (ofRelay config) (by rw [← hperformed])

/-- **What a relay goes through when calls are made at once, its crew can go through as well.** -/
theorem exists_run_ofRelay (hhandler : r.dispatcher.handler = handler config)
    (es : List Relay.Event) :
    ∃ es', (ofRelay config r).run es' = ofRelay config (r.run es) ∧
      (ofRelay config r).turns es' = r.turns es ∧
      ((∀ e ∈ es, e.isSmooth) → ∀ e ∈ es', e.isSmooth) := by
  induction es generalizing r with
  | nil => exact ⟨[], rfl, rfl, by simp⟩
  | cons e es ih =>
    obtain ⟨i, k, hrun, hturns⟩ := exists_run_event hhandler e
    obtain ⟨es', hrun', hturns', hsmooth⟩ := ih (r := r.step e) (by rw [r.policy_step, hhandler])
    refine ⟨.relay e :: goOn i k ++ es', ?_, ?_, fun hes f hf => ?_⟩
    · rw [run_append, hrun, hrun', Relay.run_cons]
    · rw [turns_append, hrun, hturns, hturns', Relay.turns]
    · rcases List.mem_append.mp hf with hf | hf
      · rcases List.mem_cons.mp hf with rfl | hf
        · exact hes e (by simp)
        · exact isSmooth_goOn i k f hf
      · exact hsmooth (fun g hg => hes g (by simp [hg])) f hf

end Crew

end ProvenanceRelay
