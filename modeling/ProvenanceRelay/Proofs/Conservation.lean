import Mathlib
import ProvenanceRelay.Output.JsonLines
import ProvenanceRelay.Proofs.Acts
import ProvenanceRelay.Proofs.Figures
import ProvenanceRelay.Proofs.LineFaults

/-!
No record is lost between the counters of the relay and those of the lines.

The relay counts what a slice comes to, the handler counts what it is told and what becomes of its
lines. Neither knows of the other. What the handler counts is read off the calls it gets
(`Counted`), and the calls that a slice causes keep step with what is counted of it (`InStep`);
together they balance the books after any run. Which lines fail is left to the sink, and there is a
sink for every choice (`exists_answers`).
-/

namespace ProvenanceRelay.Output.JsonLines

open Dispatch

/-! ### What the handler counts -/

/-- A line that was tried. -/
structure Attempt where
  kind : Kind
  succeeded : Bool

def attempt? (config : OutputConfig) (d : Dispatcher JsonLines) : Act → Option Attempt
  | .call (.handle p) =>
    some ⟨p.kind, (d.state.out.line (lineJson config.resolveNames d.names p).pieces).2⟩
  | _ => none

def attempts (config : OutputConfig) (d : Dispatcher JsonLines) : List Act → List Attempt
  | [] => []
  | a :: as => (attempt? config d a).toList ++ attempts config (d.perform a) as

/-- The kind of a record, if it is one of those to suppress. -/
def suppressedKind? (config : OutputConfig) (r : AnyRecord) : Option Kind :=
  r.kind?.filter (suppresses config)

lemma drops_eq_isSome (config : OutputConfig) (r : AnyRecord) :
    (policy config).drops r = (suppressedKind? config r).isSome := by
  cases hkind : r.kind? with
  | none => simp [policy, suppressedKind?, hkind]
  | some k =>
    cases h : suppresses config k <;> simp [policy, suppressedKind?, hkind, h, Option.filter]

/-- The kind of a record that the filter is asked about and drops. -/
@[simp] def dropped? (config : OutputConfig) : Call → Option Kind
  | .filter r => suppressedKind? config r
  | _ => none

/-- The metrics after calls and the lines that these tried. -/
structure Counted (config : OutputConfig) (cs : List Call) (lines : List Attempt) (m : Metrics) :
    Prop where
  observed : m.observed = cs.countP Call.isObserve
  errors : m.errors = cs.countP Call.isReport + lines.countP (!·.succeeded)
  written : m.written = lines.countP (·.succeeded)
  suppressed : m.suppressed = (cs.filterMap (dropped? config)).length
  tried : lines.length = cs.countP Call.isHandle
  writtenByKind : ∀ k, m.writtenByKind.get k =
    lines.countP fun l => l.succeeded && decide (l.kind = k)
  suppressedByKind : ∀ k, m.suppressedByKind.get k =
    (cs.filterMap (dropped? config)).countP fun l => decide (l = k)

lemma counted_nil (config : OutputConfig) : Counted config [] [] {} := by
  constructor <;> simp [Tally.get, Tally.empty]

variable {config : OutputConfig} {cs : List Call} {lines : List Attempt}

lemma metrics_noteFilter (s : JsonLines) (r : AnyRecord) :
    (s.noteFilter config r).metrics =
      match suppressedKind? config r with
      | some k => s.metrics.suppress k
      | none => s.metrics := by
  cases hkind : r.kind? with
  | none => simp [noteFilter, suppressedKind?, hkind]
  | some k =>
    cases h : suppresses config k <;> simp [noteFilter, suppressedKind?, hkind, h, Option.filter]

lemma metrics_emit (s : JsonLines) (resolve : Bool) (names : NameTable) (p : Payload) :
    (s.emit resolve names p).metrics =
      if (s.out.line (lineJson resolve names p).pieces).2 then s.metrics.write p.kind
      else s.metrics.fail := by
  unfold emit
  split <;> simp_all

/-- A call changes the metrics by what it is and by how its line ends. -/
lemma Counted.perform {d : Dispatcher JsonLines} (h : Counted config cs lines d.state.metrics)
    (hhandler : d.handler = handler config) (a : Act) :
    Counted config (cs ++ calls [a]) (lines ++ (attempt? config d a).toList)
      (d.perform a).state.metrics := by
  obtain ⟨hobserved, herrors, hwritten, hsuppressed, htried, hwrittenBy, hsuppressedBy⟩ := h
  cases a with
  | count c => constructor <;> simpa [attempt?, Dispatcher.perform]
  | bind i name => constructor <;> simpa [attempt?, Dispatcher.perform]
  | call c =>
    rw [perform_call hhandler]
    cases c with
    | init => constructor <;> simpa [attempt?, respond, List.filterMap_cons]
    | observe r =>
      constructor <;> simpa [attempt?, respond, Metrics.observe, List.filterMap_cons]
    | report message =>
      have herrors' := congrArg (· + 1) herrors
      simp only [Nat.add_right_comm] at herrors'
      constructor <;> simpa [attempt?, respond, Metrics.fail, List.filterMap_cons]
    | filter r =>
      rw [respond, metrics_noteFilter]
      cases hkind : suppressedKind? config r with
      | none => constructor <;> simpa [attempt?, List.filterMap_cons, hkind]
      | some k =>
        constructor <;>
          simp [attempt?, Metrics.suppress, Tally.get_bump, List.countP_cons, eq_comm, *]
    | handle p =>
      simp only [respond, attempt?]
      rw [metrics_emit]
      cases hline : (d.state.out.line (lineJson config.resolveNames d.names p).pieces).2 with
      | true =>
        constructor <;>
          simp [Metrics.write, Tally.get_bump, List.filterMap_cons, List.countP_cons, eq_comm, *]
      | false =>
        constructor <;>
          simp [Metrics.fail, List.filterMap_cons, List.countP_cons, Nat.add_assoc, *]

/-- **What the metrics hold after acts**. -/
lemma Counted.run {d : Dispatcher JsonLines} (h : Counted config cs lines d.state.metrics)
    (hhandler : d.handler = handler config) (as : List Act) :
    Counted config (cs ++ calls as) (lines ++ attempts config d as) (d.run as).state.metrics := by
  induction as generalizing d cs lines with
  | nil => simpa [attempts] using h
  | cons a as ih =>
    have hnext := ih (h.perform hhandler a) (by rw [Dispatcher.handler_perform, hhandler])
    rw [List.append_assoc, List.append_assoc, ← calls_append] at hnext
    exact hnext

/-! ### What a delivery comes to -/

@[simp] def suppressed? (config : OutputConfig) : Delivery → Option Kind
  | .slice shape bs =>
    match AnyRecord.parse shape bs with
    | .ok r => if config.queryMode then none else suppressedKind? config r
    | .error _ => none
  | .fault _ => none

/-- The calls among the acts of deliveries keep step with what is counted among them. -/
structure InStep (config : OutputConfig) (xs : List Delivery) (as : List Act) : Prop where
  observed : (calls as).countP Call.isObserve = tally .shortRecords as + tally .longRecords as
  sized : (calls as).countP Call.isObserve = xs.countP Delivery.isSized
  reported : (calls as).countP Call.isReport = tally .decodeErrors as + xs.countP Delivery.isFault
  dropped : (calls as).filterMap (dropped? config) = xs.filterMap (suppressed? config)
  filtered : ((calls as).filterMap (dropped? config)).length = tally .filtered as
  query : config.queryMode = true → (calls as).countP Call.isHandle = 0 ∧ tally .filtered as = 0 ∧
    tally .decodeErrors as = xs.countP Delivery.isMissized
  kept : config.queryMode = false →
    (calls as).countP Call.isObserve + xs.countP Delivery.isMissized =
      (calls as).countP Call.isHandle + tally .filtered as + tally .decodeErrors as
  missized : xs.countP Delivery.isMissized ≤ tally .decodeErrors as
  others : tally .ioErrors as = 0 ∧ tally .drains as = 0
  room : (calls as).countP Call.isReport + (calls as).countP Call.isHandle ≤ xs.length

lemma InStep.append {xs ys : List Delivery} {as bs : List Act} (h : InStep config xs as)
    (h' : InStep config ys bs) : InStep config (xs ++ ys) (as ++ bs) := by
  constructor
  case dropped => simp [h.dropped, h'.dropped]
  case query =>
    intro hquery
    simp [h.query hquery, h'.query hquery]
  case others => simp [h.others, h'.others]
  case kept =>
    intro hquery
    have hkept := h.kept hquery
    have hkept' := h'.kept hquery
    simp only [calls_append, tally_append, List.countP_append]
    omega
  all_goals
    obtain ⟨hobserved, hsized, hreported, -, hfiltered, -, -, hmissized, -, hroom⟩ := h
    obtain ⟨hobserved', hsized', hreported', -, hfiltered', -, -, hmissized', -, hroom'⟩ := h'
    simp only [calls_append, tally_append, List.countP_append, List.filterMap_append,
      List.length_append]
    omega

lemma inStep_fault (config : OutputConfig) (message : String) :
    InStep config [.fault message] [.call (.report message)] := by
  constructor <;> simp [List.filterMap_cons, List.countP_cons]

lemma inStep_ending {shape : Shape} {bs : Bytes} {as : List Act}
    (h : Ending (policy config) shape bs as) : InStep config [.slice shape bs] as := by
  cases h with
  | missized size =>
    constructor <;>
      simp [refuse, List.filterMap_cons, List.countP_cons, AnyRecord.parse_of_size_ne, size]
  | queried parsed query =>
    have hsize := AnyRecord.size_of_parse parsed
    replace query : config.queryMode = true := query
    constructor <;> cases shape <;>
      simp [recordCounter, List.filterMap_cons, List.countP_cons, parsed, hsize, query]
  | filtered parsed query drops =>
    have hsize := AnyRecord.size_of_parse parsed
    replace query : config.queryMode = false := query
    rw [drops_eq_isSome] at drops
    obtain ⟨k, hkind⟩ := Option.isSome_iff_exists.mp drops
    constructor <;> cases shape <;>
      simp [recordCounter, List.filterMap_cons, List.countP_cons, parsed, hsize, query, hkind]
  | undecodable parsed query drops decoded =>
    have hsize := AnyRecord.size_of_parse parsed
    replace query : config.queryMode = false := query
    rw [drops_eq_isSome, Option.isSome_eq_false_iff, Option.isNone_iff_eq_none] at drops
    constructor <;> cases shape <;>
      simp [recordCounter, refuse, List.filterMap_cons, List.countP_cons, parsed, hsize, query,
        drops]
  | routed parsed query drops decoded =>
    have hsize := AnyRecord.size_of_parse parsed
    replace query : config.queryMode = false := query
    rw [drops_eq_isSome, Option.isSome_eq_false_iff, Option.isNone_iff_eq_none] at drops
    constructor <;> cases shape <;>
      simp [recordCounter, List.filterMap_cons, List.countP_cons, parsed, hsize, query, drops]

lemma inStep_deliveries (config : OutputConfig) (xs : List Delivery) :
    InStep config xs (xs.flatMap (Delivery.acts (policy config))) := by
  induction xs with
  | nil => constructor <;> simp
  | cons x xs ih =>
    have hx : InStep config [x] (x.acts (policy config)) := by
      cases x with
      | slice shape bs => exact inStep_ending (Dispatch.ending _ shape bs)
      | fault message => exact inStep_fault config message
    exact hx.append ih

/-! ### Any lines may fail -/

/-- The same dispatcher with a sink that answers otherwise. -/
def facing (d : Dispatcher JsonLines) (answers : ℕ → Bool) : Dispatcher JsonLines :=
  { d with state := { d.state with out := d.state.out.facing answers } }

lemma sink_perform {d : Dispatcher JsonLines} (hhandler : d.handler = handler config) (a : Act) :
    (d.perform a).state.out.sink.accepts = d.state.out.sink.accepts ∧
      d.state.out.sink.writes ≤ (d.perform a).state.out.sink.writes := by
  rw [out_perform hhandler]
  split
  · exact ⟨(LineWriter.local_line _).accepts _, (LineWriter.local_line _).writes_le _⟩
  · exact ⟨rfl, le_rfl⟩

lemma succeeded_of_answer {d : Dispatcher JsonLines} {b : Bool}
    (h : ∀ n, d.state.out.sink.writes ≤ n → d.state.out.sink.accepts n = b) {a : Act} {l : Attempt}
    (hl : attempt? config d a = some l) : l.succeeded = b := by
  unfold attempt? at hl
  split at hl
  · obtain rfl := Option.some.inj hl
    exact LineWriter.line_of_answer h _
  · cases hl

/-- An act asks the sink about its own writes only. -/
lemma perform_facing {d : Dispatcher JsonLines} (hhandler : d.handler = handler config) {a : Act}
    {f : ℕ → Bool}
    (hf : ∀ n < (d.perform a).state.out.sink.writes, f n = d.state.out.sink.accepts n) :
    (facing d f).perform a = facing (d.perform a) f ∧
      attempt? config (facing d f) a = attempt? config d a := by
  cases a with
  | count c => exact ⟨rfl, rfl⟩
  | bind i name => exact ⟨rfl, rfl⟩
  | call c =>
    have hfacing : (facing d f).handler = handler config := hhandler
    rw [out_perform hhandler] at hf
    rw [perform_call hhandler, perform_call hfacing]
    cases c with
    | init | observe r | report message => exact ⟨rfl, rfl⟩
    | filter r =>
      refine ⟨?_, rfl⟩
      simp only [respond, noteFilter]
      split
      · split <;> rfl
      · rfl
    | handle p =>
      have hline := (LineWriter.local_line _).facing d.state.out f hf
      rcases hresult : d.state.out.line (lineJson config.resolveNames d.names p).pieces
        with ⟨out, _ | _⟩ <;>
      · rw [hresult] at hline
        simp only [respond, emit, attempt?, facing, hline, hresult, and_self]

/-- **Any of the lines may fail**: a sink can be chosen under which lines end by any pattern. -/
lemma exists_answers {d : Dispatcher JsonLines} (hhandler : d.handler = handler config)
    (as : List Act) (pattern : ℕ → Bool) :
    ∃ f, (∀ n < d.state.out.sink.writes, f n = d.state.out.sink.accepts n) ∧
      ∀ i l, (attempts config (facing d f) as)[i]? = some l → l.succeeded = pattern i := by
  induction as generalizing d pattern with
  | nil => exact ⟨d.state.out.sink.accepts, fun _ _ => rfl, by simp [attempts]⟩
  | cons a as ih =>
    -- all writes of the next line are answered alike
    set g : ℕ → Bool := fun n =>
      if n < d.state.out.sink.writes then d.state.out.sink.accepts n else pattern 0
    have hg : (facing d g).handler = handler config := hhandler
    set d₁ := (facing d g).perform a
    have hd₁ : d₁.handler = handler config := by rw [Dispatcher.handler_perform, hg]
    obtain ⟨haccepts, hwrites⟩ : d₁.state.out.sink.accepts = g ∧
        d.state.out.sink.writes ≤ d₁.state.out.sink.writes := sink_perform hg a
    -- later writes are answered as the rest of the pattern asks for
    have hnext : ∀ next : ℕ → Bool, ∃ f,
        (∀ n < d.state.out.sink.writes, f n = d.state.out.sink.accepts n) ∧
        attempts config (facing d f) (a :: as) =
          (attempt? config (facing d g) a).toList ++ attempts config (facing d₁ f) as ∧
        ∀ i l, (attempts config (facing d₁ f) as)[i]? = some l → l.succeeded = next i := by
      intro next
      obtain ⟨f, hf, hpattern⟩ := ih hd₁ next
      rw [haccepts] at hf
      obtain ⟨hperform, hattempt⟩ := perform_facing hg hf
      refine ⟨f, fun n hn => ?_, ?_, hpattern⟩
      · rw [hf n (hn.trans_le hwrites)]
        exact if_pos hn
      · rw [attempts, ← hattempt, ← hperform]
        rfl
    cases hattempt : attempt? config (facing d g) a with
    | none =>
      obtain ⟨f, hf, hsplit, hpattern⟩ := hnext pattern
      rw [hattempt] at hsplit
      exact ⟨f, hf, hsplit ▸ hpattern⟩
    | some l₀ =>
      obtain ⟨f, hf, hsplit, hpattern⟩ := hnext fun i => pattern (i + 1)
      rw [hattempt] at hsplit
      refine ⟨f, hf, fun i l hl => ?_⟩
      rw [hsplit] at hl
      cases i with
      | zero =>
        -- the sink answers all writes of this line by the pattern
        obtain rfl : l₀ = l := by simpa using hl
        exact succeeded_of_answer (fun n hn => if_neg (not_lt.mpr hn)) hattempt
      | succ i => exact hpattern i l hl

/-! ### The balance -/

/-- A dispatcher that has counted nothing, with a handler that has counted nothing. -/
def fresh (config : OutputConfig) (names : NameTable) (sink : Sink) : Dispatcher JsonLines where
  handler := handler config
  names := names
  state := new sink

def linesOf (config : OutputConfig) (d : Dispatcher JsonLines) (xs : List Delivery) :
    List Attempt :=
  attempts config d (xs.flatMap (Delivery.acts (policy config)))

/-- The counters of both sides after deliveries, in the course of which lines were tried. -/
structure Balanced (config : OutputConfig) (xs : List Delivery) (lines : List Attempt)
    (stats : Stats) (m : Metrics) : Prop where
  observed : m.observed = stats.shortRecords + stats.longRecords
  sized : stats.shortRecords + stats.longRecords = xs.countP Delivery.isSized
  suppressed : m.suppressed = stats.filtered
  errors : m.errors = stats.decodeErrors + xs.countP Delivery.isFault + lines.countP (!·.succeeded)
  query : config.queryMode = true →
    m.written = 0 ∧ stats.filtered = 0 ∧ stats.decodeErrors = xs.countP Delivery.isMissized
  kept : config.queryMode = false →
    stats.shortRecords + stats.longRecords =
      m.written + lines.countP (!·.succeeded) + stats.filtered +
        (stats.decodeErrors - xs.countP Delivery.isMissized)
  /-- The difference above is one of numbers that may be subtracted. -/
  missized : xs.countP Delivery.isMissized ≤ stats.decodeErrors
  writtenByKind : ∀ k, m.figure (Metrics.writtenName k) =
    lines.countP fun l => l.succeeded && decide (l.kind = k)
  writtenSum : (Kind.all.map fun k => m.figure (Metrics.writtenName k)).sum = m.written
  suppressedByKind : ∀ k, m.figure (Metrics.suppressedName k) =
    (xs.filterMap (suppressed? config)).count k
  suppressedSum : (Kind.all.map fun k => m.figure (Metrics.suppressedName k)).sum = m.suppressed
  /-- A counter of 64 bits does not overflow before there are 2 ^ 64 deliveries. -/
  fits : (∀ c, stats.get c ≤ xs.length) ∧
    m.observed ≤ xs.length ∧ m.written ≤ xs.length ∧ m.suppressed ≤ xs.length ∧
    m.errors ≤ xs.length

lemma balanced_of_inStep {xs : List Delivery} {as : List Act} {stats : Stats} {m : Metrics}
    (h : Counted config (calls as) lines m) (hstep : InStep config xs as)
    (hstats : ∀ c, stats.get c = tally c as) : Balanced config xs lines stats m := by
  obtain ⟨hobserved, herrors, hwritten, hsuppressed, htried, hwrittenBy, hsuppressedBy⟩ := h
  obtain ⟨hcounts, hsized, hreported, hdropped, hfiltered, hquery, hkept, hmissized, hothers,
    hroom⟩ := hstep
  have hshort : stats.shortRecords = tally .shortRecords as := hstats .shortRecords
  have hlong : stats.longRecords = tally .longRecords as := hstats .longRecords
  have hfilter : stats.filtered = tally .filtered as := hstats .filtered
  have hdecode : stats.decodeErrors = tally .decodeErrors as := hstats .decodeErrors
  have hlines : lines.length = lines.countP (·.succeeded) + lines.countP (!·.succeeded) := by
    simpa using List.length_eq_countP_add_countP (fun l : Attempt => l.succeeded)
  have hsizedLe : xs.countP Delivery.isSized ≤ xs.length := List.countP_le_length
  have hdroppedLe : (xs.filterMap (suppressed? config)).length ≤ xs.length :=
    List.length_filterMap_le _ _
  rw [← hdropped, hfiltered] at hdroppedLe
  -- apart from the counts by kind, all that is left is sums
  constructor
  case query =>
    intro hq
    obtain ⟨hnone, hnoFilter, hdecodes⟩ := hquery hq
    exact ⟨by omega, by omega, by omega⟩
  case kept =>
    intro hq
    have hbalance := hkept hq
    omega
  case writtenByKind =>
    intro k
    rw [Metrics.figure_writtenName, hwrittenBy]
  case writtenSum =>
    simp only [Metrics.figure_writtenName, hwrittenBy, Kind.sum_countP, hwritten]
  case suppressedByKind =>
    intro k
    rw [Metrics.figure_suppressedName, hsuppressedBy, hdropped]
    rfl
  case suppressedSum =>
    have hsum := Kind.sum_countP id (fun _ => true) ((calls as).filterMap (dropped? config))
    simpa [Metrics.figure_suppressedName, hsuppressedBy, hsuppressed] using hsum
  case fits =>
    refine ⟨?_, by omega, by omega, by omega, by omega⟩
    intro c
    rw [hstats]
    cases c <;> omega
  all_goals omega

/-- **No record is lost between the two sets of counters**, whatever slices and faults a fresh
dispatcher is given, and whichever of its lines fail. -/
theorem balanced_deliverAll (config : OutputConfig) (names : NameTable) (xs : List Delivery) :
    (∀ sink, Balanced config xs (linesOf config (fresh config names sink) xs)
        ((fresh config names sink).deliverAll xs).stats
        ((fresh config names sink).deliverAll xs).state.metrics) ∧
      ∀ pattern : ℕ → Bool, ∃ sink, ∀ i l,
        (linesOf config (fresh config names sink) xs)[i]? = some l → l.succeeded = pattern i := by
  set as := xs.flatMap (Delivery.acts (policy config))
  constructor
  · intro sink
    set d := fresh config names sink
    have hrun : d.deliverAll xs = d.run as := d.deliverAll_eq_run xs
    have hcounted : Counted config (calls as) (linesOf config d xs) (d.run as).state.metrics :=
      Counted.run (d := d) (counted_nil config) rfl as
    have hstats : ∀ c, (d.run as).stats.get c = tally c as := by
      intro c
      rw [Dispatcher.stats_run, show d.stats.get c = 0 from Stats.get_init c, Nat.zero_add]
    rw [hrun]
    exact balanced_of_inStep hcounted (inStep_deliveries config xs) hstats
  · intro pattern
    obtain ⟨f, -, hf⟩ := exists_answers (d := fresh config names .working) rfl as pattern
    exact ⟨{ accepts := f }, hf⟩

end ProvenanceRelay.Output.JsonLines
