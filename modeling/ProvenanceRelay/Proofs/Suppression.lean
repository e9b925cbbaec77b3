import Mathlib
import ProvenanceRelay.Proofs.Conservation

/-!
Suppressing records is the same as never getting them.

Two dispatchers are run side by side: one suppresses, the other suppresses nothing and is not given
what the first one suppresses. A record that only the first one gets leaves no trace but in the
counts of what was observed, filtered and suppressed; any other slice comes to the same acts on both
sides.
-/

namespace ProvenanceRelay.Output.JsonLines

open Dispatch

def sparing (config : OutputConfig) : OutputConfig := { config with suppress := [] }

/-- A record of the right size whose kind is one of those to suppress. -/
def isSuppressed (config : OutputConfig) : Delivery → Bool
  | .slice shape bs =>
    match AnyRecord.parse shape bs with
    | .ok r => r.kind?.any fun k => k.name ∈ config.suppress
    | .error _ => false
  | .fault _ => false

/-- One dispatcher suppresses, the other does not, and they cannot be told apart by what they have
written, bound, reported and refused. -/
structure Alike (config : OutputConfig) (d d' : Dispatcher JsonLines) : Prop where
  handler : d.handler = handler config
  handler' : d'.handler = JsonLines.handler (sparing config)
  out : d.state.out = d'.state.out
  names : d.names = d'.names
  written : d.state.metrics.written = d'.state.metrics.written
  writtenByKind : d.state.metrics.writtenByKind = d'.state.metrics.writtenByKind
  errors : d.state.metrics.errors = d'.state.metrics.errors
  decodeErrors : d.stats.decodeErrors = d'.stats.decodeErrors

/-- An act that only tells of a record which is then suppressed. -/
def isAside : Act → Bool
  | .count c => c ≠ .decodeErrors
  | .call (.observe _) | .call (.filter _) => true
  | _ => false

variable {config : OutputConfig} {d d' : Dispatcher JsonLines}

lemma noteFilter_eq (s : JsonLines) (config : OutputConfig) (r : AnyRecord) :
    ∃ m, s.noteFilter config r = { s with metrics := m } ∧ m.written = s.metrics.written ∧
      m.writtenByKind = s.metrics.writtenByKind ∧ m.errors = s.metrics.errors := by
  unfold noteFilter
  split
  · split
    · exact ⟨_, rfl, rfl, rfl, rfl⟩
    · exact ⟨_, rfl, rfl, rfl, rfl⟩
  · exact ⟨_, rfl, rfl, rfl, rfl⟩

lemma Alike.aside (h : Alike config d d') {a : Act} (ha : isAside a) :
    Alike config (d.perform a) d' := by
  have hhandler : (d.perform a).handler = JsonLines.handler config := by
    rw [Dispatcher.handler_perform, h.handler]
  cases a with
  | count c =>
    refine { h with decodeErrors := ?_ }
    cases c with
    | decodeErrors => simp [isAside] at ha
    | _ => exact h.decodeErrors
  | bind i name => cases ha
  | call c =>
    cases c with
    | observe r =>
      rw [perform_call h.handler] at hhandler ⊢
      exact ⟨hhandler, h.handler', h.out, h.names, h.written, h.writtenByKind, h.errors,
        h.decodeErrors⟩
    | filter r =>
      obtain ⟨m, hnote, hwritten, hkinds, herrors⟩ := noteFilter_eq d.state config r
      rw [perform_call h.handler, respond, hnote] at hhandler ⊢
      exact ⟨hhandler, h.handler', h.out, h.names, hwritten.trans h.written,
        hkinds.trans h.writtenByKind, herrors.trans h.errors, h.decodeErrors⟩
    | _ => cases ha

lemma Alike.asides (h : Alike config d d') {as : List Act} (has : ∀ a ∈ as, isAside a) :
    Alike config (d.run as) d' := by
  induction as generalizing d with
  | nil => exact h
  | cons a as ih =>
    obtain ⟨ha, has⟩ := List.forall_mem_cons.mp has
    exact ih (h.aside ha) has

lemma Alike.perform (h : Alike config d d') (a : Act) :
    Alike config (d.perform a) (d'.perform a) := by
  have hhandler : (d.perform a).handler = JsonLines.handler config := by
    rw [Dispatcher.handler_perform, h.handler]
  have hhandler' : (d'.perform a).handler = JsonLines.handler (sparing config) := by
    rw [Dispatcher.handler_perform, h.handler']
  obtain ⟨-, -, hout, hnames, hwritten, hkinds, herrors, hdecode⟩ := id h
  cases a with
  | count c =>
    refine { h with decodeErrors := ?_ }
    have hd := d.stats.get_count c .decodeErrors
    have hd' := d'.stats.get_count c .decodeErrors
    simp only [Stats.get] at hd hd'
    exact hd.trans (hdecode ▸ hd'.symm)
  | bind i name =>
    refine { h with names := ?_ }
    show d.names.insert i name = d'.names.insert i name
    rw [hnames]
  | call c =>
    cases c with
    | init =>
      rw [perform_call h.handler, perform_call h.handler']
      exact h
    | observe r =>
      rw [perform_call h.handler, perform_call h.handler'] at *
      exact ⟨hhandler, hhandler', hout, hnames, hwritten, hkinds, herrors, hdecode⟩
    | filter r =>
      -- what is noted of a dropped record is not among what the two agree on
      obtain ⟨m, hnote, hmwritten, hmkinds, hmerrors⟩ := noteFilter_eq d'.state (sparing config) r
      have hleft := h.aside (a := .call (.filter r)) rfl
      rw [perform_call h.handler', respond, hnote] at hhandler' ⊢
      exact ⟨hleft.handler, hhandler', hleft.out, hleft.names, hleft.written.trans hmwritten.symm,
        hleft.writtenByKind.trans hmkinds.symm, hleft.errors.trans hmerrors.symm,
        hleft.decodeErrors⟩
    | report message =>
      rw [perform_call h.handler, perform_call h.handler'] at *
      exact ⟨hhandler, hhandler', hout, hnames, hwritten, hkinds, congrArg (· + 1) herrors, hdecode⟩
    | handle p =>
      rw [perform_call h.handler, perform_call h.handler'] at *
      have hresolve : (sparing config).resolveNames = config.resolveNames := rfl
      simp only [respond, emit, hresolve, ← hout, ← hnames] at hhandler hhandler' ⊢
      split
      · exact ⟨hhandler, hhandler', rfl, rfl, congrArg (· + 1) hwritten,
          congrArg (Tally.bump · p.kind) hkinds, herrors, hdecode⟩
      · exact ⟨hhandler, hhandler', rfl, rfl, hwritten, hkinds, congrArg (· + 1) herrors, hdecode⟩

lemma Alike.run (h : Alike config d d') (as : List Act) : Alike config (d.run as) (d'.run as) := by
  induction as generalizing d d' with
  | nil => exact h
  | cons a as ih => exact ih (h.perform a)

/-! ### What slices come to on both sides -/

lemma drops_sparing (r : AnyRecord) : (policy (sparing config)).drops r = false := by
  rw [drops_eq_isSome]
  cases hkind : r.kind? <;> simp [suppressedKind?, suppresses, sparing, hkind]

lemma isSuppressed_slice {shape : Shape} {bs : Bytes} {r : AnyRecord}
    (hparse : AnyRecord.parse shape bs = .ok r) :
    isSuppressed config (.slice shape bs) = (policy config).drops r := by
  rw [isSuppressed, hparse]
  rfl

lemma isAside_of_isSuppressed {x : Delivery} (hx : isSuppressed config x = true) :
    ∀ a ∈ x.acts (policy config), isAside a := by
  cases x with
  | fault message => cases hx
  | slice shape bs =>
    have hending : Ending (policy config) shape bs
        ((Delivery.slice shape bs).acts (policy config)) := ending _ shape bs
    have hdrops : ∀ {r}, AnyRecord.parse shape bs = .ok r → (policy config).drops r = true := by
      intro r hparse
      rwa [isSuppressed_slice hparse] at hx
    have hcount : recordCounter shape ≠ .decodeErrors := by cases shape <;> decide
    generalize (Delivery.slice shape bs).acts (policy config) = as at hending
    cases hending with
    | missized size => simp [isSuppressed, AnyRecord.parse_of_size_ne size] at hx
    | queried parsed query => simp [isAside, hcount]
    | filtered parsed query drops => simp [isAside, hcount]
    | undecodable parsed query drops decoded =>
      rw [hdrops parsed] at drops
      cases drops
    | routed parsed query drops decoded =>
      rw [hdrops parsed] at drops
      cases drops

lemma acts_of_not_isSuppressed {x : Delivery} (hx : isSuppressed config x = false) :
    x.acts (policy (sparing config)) = x.acts (policy config) := by
  cases x with
  | fault message => rfl
  | slice shape bs =>
    simp only [Delivery.acts, Dispatch.acts]
    cases hparse : AnyRecord.parse shape bs with
    | error e => rfl
    | ok r =>
      rw [isSuppressed_slice hparse] at hx
      have hquery : (policy (sparing config)).query = (policy config).query := rfl
      simp only [hx, drops_sparing, hquery]

lemma Alike.deliverAll (h : Alike config d d') (xs : List Delivery) :
    Alike config (d.deliverAll xs) (d'.deliverAll (xs.filter fun x => !isSuppressed config x)) := by
  induction xs generalizing d d' with
  | nil => exact h
  | cons x xs ih =>
    have hx : d.deliver x = d.run (x.acts (policy config)) := by
      rw [Dispatcher.deliver_eq_run, h.handler]
      rfl
    show Alike config ((d.deliver x).deliverAll xs) _
    cases hsuppressed : isSuppressed config x with
    | true =>
      rw [List.filter_cons_of_neg (by simp [hsuppressed]), hx]
      exact ih (h.asides (isAside_of_isSuppressed hsuppressed))
    | false =>
      have hx' : d'.deliver x = d'.run (x.acts (policy config)) := by
        rw [Dispatcher.deliver_eq_run, h.handler', ← acts_of_not_isSuppressed hsuppressed]
        rfl
      rw [List.filter_cons_of_pos (by simp [hsuppressed]), hx]
      show Alike config _ ((d'.deliver x).deliverAll _)
      rw [hx']
      exact ih (h.run _)

/-- **Suppressing records is the same as never getting them**: the lines, the names, what was
written of each kind, the errors and the slices refused are those of a run without the suppressed
records in which nothing is suppressed. -/
theorem suppression_eq_removal (config : OutputConfig) (names : NameTable) (sink : Sink)
    (xs : List Delivery) :
    let d := (fresh config names sink).deliverAll xs
    let d' := (fresh { config with suppress := [] } names sink).deliverAll
      (xs.filter fun x => !isSuppressed config x)
    d.state.out = d'.state.out ∧ d.names = d'.names ∧
      d.state.metrics.written = d'.state.metrics.written ∧
      d.state.metrics.writtenByKind = d'.state.metrics.writtenByKind ∧
      d.state.metrics.errors = d'.state.metrics.errors ∧
      d.stats.decodeErrors = d'.stats.decodeErrors := by
  intro d d'
  have hstart : Alike config (fresh config names sink) (fresh (sparing config) names sink) :=
    ⟨rfl, rfl, rfl, rfl, rfl, rfl, rfl, rfl⟩
  have halike : Alike config d d' := hstart.deliverAll xs
  exact ⟨halike.out, halike.names, halike.written, halike.writtenByKind, halike.errors,
    halike.decodeErrors⟩

end ProvenanceRelay.Output.JsonLines
