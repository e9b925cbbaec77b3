import Mathlib
import ProvenanceRelay.Proofs.Suppression
import ProvenanceRelay.Proofs.WholeLines

/-!
The records that were written are had again from the output.

Each act that hands over a record adds its line to what a working output has, and the line is
counted. So the text that deliveries add is read, line by line, as the records that they bring.
-/

namespace ProvenanceRelay

open Text

namespace Output.JsonLines

open Dispatch Crew

variable {config : OutputConfig} {d d' d'' : Dispatcher JsonLines} {ls ms : List Line}

/-- The line of the record that an act hands over, with the names that are bound by then. -/
def line? (config : OutputConfig) (d : Dispatcher JsonLines) (a : Act) : Option Line :=
  a.handled?.map (lineOf config.resolveNames d.names)

def linesFrom (config : OutputConfig) (d : Dispatcher JsonLines) : List Act → List Line
  | [] => []
  | a :: as => (line? config d a).toList ++ linesFrom config (d.perform a) as

lemma map_payload_linesFrom (d : Dispatcher JsonLines) (as : List Act) :
    (linesFrom config d as).map Line.payload = as.filterMap Act.handled? := by
  induction as generalizing d with
  | nil => rfl
  | cons a as ih =>
    rw [linesFrom, List.map_append, ih, List.filterMap_cons, line?]
    cases a.handled? <;> rfl

/-- The acts for a delivery hand over the record that it gets a line for. -/
lemma filterMap_handled?_acts (config : OutputConfig) (x : Delivery) :
    (x.acts (policy config)).filterMap Act.handled? =
      if config.queryMode then [] else (payload? config x).toList := by
  cases x with
  | fault message => cases config.queryMode <;> rfl
  | slice shape bs =>
    cases hquery : config.queryMode with
    | false =>
      obtain ⟨as, has, hacts⟩ := exists_acts_eq hquery shape bs
      have hnone : as.filterMap Act.handled? = [] := by
        rw [List.filterMap_eq_nil_iff]
        exact fun a ha => Act.handled?_of_isQuiet a (has a ha)
      rw [Delivery.acts, hacts, List.filterMap_append, hnone]
      cases payload? config (.slice shape bs) with
      | none => rfl
      | some p => simp [filterMap_handled?_route]
    | true =>
      have hpolicy : (policy config).query = true := hquery
      have hending := ending (policy config) shape bs
      rw [Delivery.acts]
      generalize acts (policy config) shape bs = as at hending
      cases hending with
      | missized | queried => rfl
      | filtered _ query | undecodable _ query | routed _ query =>
        rw [hpolicy] at query
        cases query

/-- A dispatcher whose output works and holds nothing. -/
structure Ready (config : OutputConfig) (d : Dispatcher JsonLines) : Prop where
  handler : d.handler = JsonLines.handler config
  works : d.state.out.Works
  held : d.state.out.held = ""

/-- A dispatcher that has got ahead by lines, and has counted them. -/
structure Adds (config : OutputConfig) (ls : List Line) (d d' : Dispatcher JsonLines) : Prop
    extends Ready config d' where
  written : d'.state.out.sink.written =
    d.state.out.sink.written ++ linesText (ls.map Line.json)
  counted : d'.state.metrics.written = d.state.metrics.written + ls.length

lemma Adds.trans (h : Adds config ls d d') (h' : Adds config ms d' d'') :
    Adds config (ls ++ ms) d d'' where
  toReady := h'.toReady
  written := by
    rw [h'.written, h.written, List.map_append, linesText_append, String.append_assoc]
  counted := by rw [h'.counted, h.counted, List.length_append, Nat.add_assoc]

namespace Ready

lemma idle (h : Ready config d) (hhandler : d'.handler = d.handler)
    (hout : d'.state.out = d.state.out)
    (hwritten : d'.state.metrics.written = d.state.metrics.written) : Adds config [] d d' where
  handler := hhandler.trans h.handler
  works := hout ▸ h.works
  held := hout ▸ h.held
  written := by simp [hout, linesText]
  counted := hwritten

lemma adds_handle (h : Ready config d) (p : Payload) :
    Adds config [lineOf config.resolveNames d.names p] d (d.perform (.call (.handle p))) := by
  set l := lineOf config.resolveNames d.names p
  obtain ⟨out, hline, hgrown, hheld⟩ := LineWriter.line_of_works h.works l.json.pieces
  have hperform : d.perform (.call (.handle p)) =
      { d with state := { out, metrics := d.state.metrics.write p.kind } } := by
    rw [perform_call h.handler, respond, emit_eq, hline]
    rfl
  have htext := hgrown.text
  rw [LineWriter.text, LineWriter.text, hheld, h.held, String.append_empty, String.append_empty]
    at htext
  rw [hperform]
  exact
    { handler := h.handler
      works := hgrown.works
      held := hheld
      written := by simpa [linesText, Json.compact] using htext
      counted := rfl }

lemma adds_perform (h : Ready config d) (a : Act) :
    Adds config (line? config d a).toList d (d.perform a) := by
  cases a with
  | count c => exact h.idle rfl rfl rfl
  | bind i name => exact h.idle rfl rfl rfl
  | call c =>
    cases c with
    | handle p => exact h.adds_handle p
    | filter r =>
      obtain ⟨m, hnote, hwritten, -⟩ := noteFilter_eq d.state config r
      have hperform : d.perform (.call (.filter r)) =
          { d with state := { d.state with metrics := m } } := by
        rw [perform_call h.handler, respond, hnote]
      rw [hperform]
      exact h.idle rfl rfl hwritten
    | init | observe r | report message =>
      rw [perform_call h.handler]
      exact h.idle rfl rfl rfl

/-- **Acts add the lines of the records that they hand over.** -/
lemma adds_run (h : Ready config d) (as : List Act) :
    Adds config (linesFrom config d as) d (d.run as) := by
  induction as generalizing d with
  | nil => exact h.idle rfl rfl rfl
  | cons a as ih =>
    have hstep := h.adds_perform a
    exact hstep.trans (ih hstep.toReady)

lemma adds_deliverAll (h : Ready config d) (xs : List Delivery) :
    Adds config (linesFrom config d (xs.flatMap (Delivery.acts (policy config)))) d
      (d.deliverAll xs) := by
  have hpolicy : d.handler.policy = policy config := by
    rw [h.handler]
    rfl
  rw [Dispatcher.deliverAll_eq_run, hpolicy]
  exact h.adds_run _

end Ready

lemma map_payload_linesFrom_acts (config : OutputConfig) (d : Dispatcher JsonLines)
    (xs : List Delivery) :
    (linesFrom config d (xs.flatMap (Delivery.acts (policy config)))).map Line.payload =
      if config.queryMode then [] else xs.filterMap (payload? config) := by
  rw [map_payload_linesFrom, List.filterMap_flatMap]
  simp only [filterMap_handled?_acts]
  cases config.queryMode with
  | true => simp
  | false => simp [List.filterMap_eq_flatMap_toList]

/-- **One record is one line.** Whatever its strings hold, the line of a decoded record has no byte
of a control character and is one object, from which its kind, the names of its ends and all that
its document tells are read. So a text that is cut at its newlines gives one object for each record
that was written, and nothing else. -/
theorem lines_read_back (config : OutputConfig) (d : Dispatcher JsonLines)
    (hready : Ready config d) :
    (∀ (r : AnyRecord) (p : Payload) (names : NameTable), r.decode = .ok p →
      let text := (lineJson config.resolveNames names p).compact
      (∀ b ∈ Utf8.encode text, 0x20 ≤ b) ∧
      (∃ fields, Json.read? text = some (.object fields)) ∧
      r.kind? = some p.kind ∧
      Reading.ofText? text = some {
        kind := p.kind
        sender := called config.resolveNames names Relation.sender p
        receiver := called config.resolveNames names Relation.receiver p
        record := p.told
        address := p.addressText }) ∧
    ∀ xs : List Delivery,
      let d' := d.deliverAll xs
      let ls := linesFrom config d (xs.flatMap (Delivery.acts (policy config)))
      ls.map Line.payload = (if config.queryMode then [] else xs.filterMap (payload? config)) ∧
      d'.state.metrics.written = d.state.metrics.written + ls.length ∧
      ∃ text, d'.state.out.sink.written = d.state.out.sink.written ++ text ∧
        between text = ls.map (·.json.compact) ++ [""] ∧
        (between text).dropLast.map Reading.ofText? = ls.map fun l => some (.of l) := by
  refine ⟨fun r p names hdecode => ⟨?_, ?_, ?_, ?_⟩, fun xs => ?_⟩
  · exact (Json.printable_compact _).le_of_mem_encode
  · rw [Json.read?_compact, lineJson]
    exact ⟨_, rfl⟩
  · exact AnyRecord.kind?_of_decode hdecode
  · rw [lineJson_eq]
    exact Reading.ofText?_compact (lineOf config.resolveNames names p)
  · intro d' ls
    have hadds : Adds config ls d d' := hready.adds_deliverAll xs
    refine ⟨map_payload_linesFrom_acts config d xs, hadds.counted, _, hadds.written, ?_,
      ofText?_between ls⟩
    rw [between_linesText, List.map_map]
    rfl

/-- A newline, a quote, a backslash, a zero, a control character without a letter, a byte that no
text has, and a letter. -/
def unrulyName : Bytes := [10, 34, 92, 0, 31, 255, 101]

/-- A path record with that name and the last of all epochs. -/
def unrulyPath : Record .long where
  bytes := Bytes.toLE 8 LongKind.path.tag.toNat ++ List.replicate 32 0 ++ List.replicate 8 255 ++
    List.replicate 16 0 ++ [7, 0] ++ unrulyName ++ List.replicate 4279 0
  length_eq := by
    simp only [unrulyName, List.length_append, Bytes.length_toLE, List.length_replicate,
      List.length_cons, List.length_nil, Shape.size]

lemma decode_unrulyPath :
    (AnyRecord.long unrulyPath).decode =
      .ok (.long (.path ⟨unrulyPath.header, "\n\"\\\x00\x1F\uFFFDe"⟩)) := by
  have hname : Utf8.decodeLossy unrulyName = "\n\"\\\x00\x1F\uFFFDe" := by
    simp [unrulyName, Utf8.decodeLossy, Utf8.scan, Utf8.lead?, Utf8.tails]
  rw [← hname]
  rfl

/-- An instance with a name in which nearly every character has to be escaped. -/
theorem lines_read_back_unruly :
    let d : Dispatcher JsonLines := { handler := handler {}, state := new .working }
    let p : Payload := .long (.path ⟨unrulyPath.header, "\n\"\\\x00\x1F\uFFFDe"⟩)
    let text := (lineJson true .empty p).compact
    let xs : List Delivery := [.slice .long unrulyPath.bytes]
    let ls := linesFrom {} d (xs.flatMap (Delivery.acts (policy {})))
    Ready {} d ∧ (AnyRecord.long unrulyPath).decode = .ok p ∧
      ((∀ b ∈ Utf8.encode text, 0x20 ≤ b) ∧
        (∃ fields, Json.read? text = some (.object fields)) ∧
        (AnyRecord.long unrulyPath).kind? = some .path ∧
        Reading.ofText? text = some ⟨.path, none, none, p.told, none⟩) ∧
      ls.map Line.payload = xs.filterMap (payload? {}) ∧
      (d.deliverAll xs).state.metrics.written = ls.length ∧
      ∃ written, (d.deliverAll xs).state.out.sink.written = "" ++ written ∧
        between written = ls.map (·.json.compact) ++ [""] ∧
        (between written).dropLast.map Reading.ofText? = ls.map fun l => some (.of l) := by
  intro d p text xs ls
  have hready : Ready {} d := ⟨rfl, fun _ _ => rfl, rfl⟩
  obtain ⟨hline, hlines⟩ := lines_read_back {} d hready
  obtain ⟨hpayloads, hcounted, hwritten⟩ := hlines xs
  refine ⟨hready, decode_unrulyPath, hline _ p .empty decode_unrulyPath, hpayloads, ?_, hwritten⟩
  rw [hcounted]
  exact Nat.zero_add _

end Output.JsonLines

end ProvenanceRelay
