import Mathlib
import ProvenanceRelay.Proofs.LineOutput

/-!
In query mode only the sizes of slices are seen.

What a slice is from outside is its shape and its size. In query mode the outlines of the
deliveries alone decide what a dispatcher comes to: each is noted by one counter and one figure, and
neither the output nor the names are touched. So two histories with the same outlines cannot be told
apart, whatever the slices hold.
-/

namespace ProvenanceRelay

open Dispatch

/-- What a delivery is from outside: of a slice the shape and the size, of a fault nothing. -/
inductive Outline where
  | slice (shape : Shape) (size : ℕ)
  | fault

def Delivery.outline : Delivery → Outline
  | slice shape bs => .slice shape bs.length
  | fault _ => .fault

namespace Outline

def isSized : Outline → Bool
  | slice shape size => size = shape.size
  | fault => false

def counter? : Outline → Option Counter
  | slice shape size => some (if size = shape.size then recordCounter shape else .decodeErrors)
  | fault => none

end Outline

namespace Output.JsonLines

variable {config : OutputConfig} {d : Dispatcher JsonLines}

/-- All that query mode does about a delivery. -/
def note (d : Dispatcher JsonLines) (o : Outline) : Dispatcher JsonLines :=
  { d with
    stats := o.counter?.elim d.stats d.stats.count
    state.metrics := if o.isSized then d.state.metrics.observe else d.state.metrics.fail }

@[simp] lemma handler_note (d : Dispatcher JsonLines) (o : Outline) :
    (note d o).handler = d.handler := rfl

lemma dispatch_eq_note (hquery : config.queryMode = true) (hhandler : d.handler = handler config)
    (shape : Shape) (bs : Bytes) : d.dispatch shape bs = note d (.slice shape bs.length) := by
  have hending := ending d.handler.policy shape bs
  rw [Dispatcher.dispatch]
  generalize acts d.handler.policy shape bs = as at hending ⊢
  obtain ⟨h, names, stats, state⟩ := d
  obtain rfl : h = handler config := hhandler
  have hpolicy : (handler config).policy.query = true := hquery
  cases hending with
  | missized size =>
    simp [note, Outline.counter?, Outline.isSized, size, refuse, Dispatcher.perform, handler,
      respond]
  | queried parsed =>
    have hsize := AnyRecord.size_of_parse parsed
    simp [note, Outline.counter?, Outline.isSized, hsize, Dispatcher.perform, handler, respond]
  -- The filter is not asked in query mode.
  | filtered _ query => exact absurd (hpolicy.symm.trans query) (by simp)
  | undecodable _ query => exact absurd (hpolicy.symm.trans query) (by simp)
  | routed _ query => exact absurd (hpolicy.symm.trans query) (by simp)

lemma deliver_eq_note (hquery : config.queryMode = true) (hhandler : d.handler = handler config)
    (x : Delivery) : d.deliver x = note d x.outline := by
  cases x with
  | slice shape bs => exact dispatch_eq_note hquery hhandler shape bs
  | fault message => exact perform_call hhandler (.report message)

lemma deliverAll_eq_notes (hquery : config.queryMode = true) (hhandler : d.handler = handler config)
    (xs : List Delivery) : d.deliverAll xs = (xs.map Delivery.outline).foldl note d := by
  induction xs generalizing d with
  | nil => rfl
  | cons x xs ih =>
    show (d.deliver x).deliverAll xs = _
    rw [deliver_eq_note hquery hhandler, ih (by rw [handler_note, hhandler])]
    rfl

/-- What a history of notes leaves as it was, and what it counts. -/
structure Noted (os : List Outline) (d d' : Dispatcher JsonLines) : Prop where
  out : d'.state.out = d.state.out
  names : d'.names = d.names
  metrics : d'.state.metrics =
    { d.state.metrics with
      observed := d.state.metrics.observed + os.countP Outline.isSized
      errors := d.state.metrics.errors + os.countP (!·.isSized) }
  stats : ∀ c, d'.stats.get c = d.stats.get c + os.countP (·.counter? = some c)

lemma noted_notes (d : Dispatcher JsonLines) (os : List Outline) :
    Noted os d (os.foldl note d) := by
  induction os generalizing d with
  | nil => exact ⟨rfl, rfl, rfl, fun _ => rfl⟩
  | cons o os ih =>
    obtain ⟨hout, hnames, hmetrics, hstats⟩ := ih (note d o)
    refine ⟨hout, hnames, hmetrics.trans ?_, fun c => (hstats c).trans ?_⟩
    · cases hsized : o.isSized with
      | true => simp [note, hsized, Metrics.observe]; omega
      | false => simp [note, hsized, Metrics.fail]; omega
    · cases hcounter : o.counter? with
      | none => simp [note, hcounter]
      | some c' => simp [note, hcounter, Stats.get_count, List.countP_cons, @eq_comm _ c]; omega

/-- **Query mode reveals and changes nothing but counts**: two histories with the same shapes and
sizes come to the same, whatever the slices hold. Nothing is written and no name is bound. Each
slice of the size of its shape is counted for its shape and as observed, and any other is an
error. -/
theorem query_sees_outlines (config : OutputConfig) (hquery : config.queryMode = true)
    (d : Dispatcher JsonLines) (hhandler : d.handler = handler config) (xs ys : List Delivery)
    (hsame : xs.map Delivery.outline = ys.map Delivery.outline) :
    d.deliverAll xs = d.deliverAll ys ∧ Noted (xs.map Delivery.outline) d (d.deliverAll xs) := by
  rw [deliverAll_eq_notes hquery hhandler, deliverAll_eq_notes hquery hhandler, hsame]
  exact ⟨rfl, noted_notes d _⟩

/-- A relation, a path that names its sender, and a slice that is too short. -/
def tellingSlices : List Delivery :=
  [.slice .short etcUsed, .slice .long etcPath, .slice .short [1, 2, 3]]

/-- Slices of the same shapes and sizes, but with tags that are unknown. -/
def blankSlices : List Delivery :=
  [.slice .short (List.replicate etcUsed.length 255),
    .slice .long (List.replicate etcPath.length 0), .slice .short [0, 0, 0]]

/-- An instance with a suppressed kind, which without query mode would write one line and bind one
name on the one side only. -/
theorem query_sees_outlines_etc :
    let config : OutputConfig := { queryMode := true, suppress := ["used"] }
    let d : Dispatcher JsonLines := { handler := handler config, state := new .working }
    config.queryMode = true ∧ d.handler = handler config ∧
      tellingSlices.map Delivery.outline = blankSlices.map Delivery.outline ∧
      d.deliverAll tellingSlices = d.deliverAll blankSlices ∧
      Noted (tellingSlices.map Delivery.outline) d (d.deliverAll tellingSlices) := by
  intro config d
  have hsame : tellingSlices.map Delivery.outline = blankSlices.map Delivery.outline := by
    simp [tellingSlices, blankSlices, Delivery.outline]
  exact ⟨rfl, rfl, hsame, query_sees_outlines config rfl d rfl _ _ hsame⟩

end Output.JsonLines

end ProvenanceRelay
