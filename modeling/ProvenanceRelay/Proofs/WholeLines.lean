import Mathlib
import ProvenanceRelay.Proofs.OutputFile
import ProvenanceRelay.Proofs.Registration
import ProvenanceRelay.Proofs.SharedOutput
import ProvenanceRelay.Proofs.Uninterrupted

/-!
Whole lines from readers that share an output.

In whatever order the readers go on, the output gets one line for each record that is handled, each
in one piece, and the lines of a channel in the order of its records. Two orders differ in nothing
but the order of the lines and in what they call the ends of relations.
-/

namespace ProvenanceRelay

open Dispatch Output Output.JsonLines
open Reader (records)
open Relay (Turn actsOf takenOf turnsOf)

/-! ### The record of a slice -/

namespace Output.JsonLines

variable {config : OutputConfig} {x : Delivery} {i : Identifier} {name : String} {p : Payload}

/-- The record that a slice gets a line for, if it gets one. -/
def payload? (config : OutputConfig) : Delivery → Option Payload
  | .slice shape bs =>
    match AnyRecord.parse shape bs with
    | .ok r => if (policy config).drops r then none else r.decode.toOption
    | .error _ => none
  | .fault _ => none

lemma payload?_eq_some_iff : payload? config x = some p ↔ ∃ r, Accepted config x r p := by
  constructor
  · intro h
    cases x with
    | fault message => cases h
    | slice shape bs =>
      simp only [payload?] at h
      cases hparse : AnyRecord.parse shape bs with
      | error e => simp [hparse] at h
      | ok r =>
        rw [hparse] at h
        cases hdrops : (policy config).drops r with
        | true => simp [hdrops] at h
        | false =>
          cases hdecode : r.decode with
          | error e => simp [hdrops, hdecode, Except.toOption] at h
          | ok q =>
            obtain rfl : q = p := by simpa [hdrops, hdecode, Except.toOption] using h
            exact ⟨r, .mk (AnyRecord.size_of_parse hparse) hparse
              ((drops_eq_false_iff config r).mp hdrops) hdecode⟩
  · rintro ⟨r, -, hparse, hkept, hdecode⟩
    simp [payload?, hparse, (drops_eq_false_iff config r).mpr hkept, hdecode, Except.toOption]

lemma binds_iff : Binds config x i name ↔ (payload? config x).bind binding? = some (i, name) := by
  rw [Option.bind_eq_some_iff]
  constructor
  · rintro ⟨r, e, haccepted, hi, hname⟩
    exact ⟨_, payload?_eq_some_iff.mpr ⟨r, haccepted⟩,
      haccepted.binds_iff.mp ⟨r, e, haccepted, hi, hname⟩⟩
  · rintro ⟨p, hp, hbinding⟩
    obtain ⟨r, haccepted⟩ := payload?_eq_some_iff.mp hp
    exact haccepted.binds_iff.mpr hbinding

lemma firstName_cons {xs : List Delivery} :
    FirstName config (x :: xs) i name ↔
      Binds config x i name ∨
        (∀ other, ¬ Binds config x i other) ∧ FirstName config xs i name := by
  constructor
  · rintro ⟨before, y, after, hsplit, hbinds, hfirst⟩
    cases before with
    | nil =>
      obtain ⟨rfl, -⟩ := List.cons.inj hsplit
      exact .inl hbinds
    | cons z before =>
      obtain ⟨rfl, rfl⟩ := List.cons.inj hsplit
      refine .inr ⟨hfirst x (by simp), before, y, after, rfl, hbinds, fun u hu => ?_⟩
      exact hfirst u (by simp [hu])
  · rintro (hbinds | ⟨hnone, before, y, after, rfl, hbinds, hfirst⟩)
    · exact ⟨[], x, xs, rfl, hbinds, by simp⟩
    · refine ⟨x :: before, y, after, rfl, hbinds, fun u hu => ?_⟩
      rcases List.mem_cons.mp hu with rfl | hu
      · exact hnone
      · exact hfirst u hu

/-- The first name of an identifier is found by looking it up among the bindings. -/
lemma firstName_iff_lookup {xs : List Delivery} :
    FirstName config xs i name ↔
      ((xs.filterMap (payload? config)).filterMap binding?).lookup i = some name := by
  rw [List.filterMap_filterMap]
  induction xs with
  | nil => simp [FirstName]
  | cons x xs ih =>
    rw [firstName_cons, ih]
    simp only [binds_iff]
    cases hbinding : (payload? config x).bind binding? with
    | none => simp [hbinding]
    | some b =>
      obtain ⟨j, other⟩ := b
      have hcons : (x :: xs).filterMap (fun x => (payload? config x).bind binding?) =
          (j, other) :: xs.filterMap fun x => (payload? config x).bind binding? :=
        List.filterMap_cons_some hbinding
      rw [hcons, List.lookup_cons]
      by_cases hij : i = j
      · subst hij
        simp
      · simp [beq_false_of_ne hij, Ne.symm hij]

/-- The acts for a slice are those that route its record, after others that neither write nor
bind. -/
lemma exists_acts_eq (hquery : config.queryMode = false) (shape : Shape) (bs : Bytes) :
    ∃ as, (∀ a ∈ as, isQuiet a) ∧
      acts (policy config) shape bs = as ++ (payload? config (.slice shape bs)).elim [] route := by
  have hending := ending (policy config) shape bs
  generalize acts (policy config) shape bs = as at hending
  cases hending with
  | missized size =>
    refine ⟨_, ?_, by simp [payload?, AnyRecord.parse_of_size_ne size]; rfl⟩
    simp [refuse, isQuiet]
  | queried parsed query =>
    rw [policy, hquery] at query
    cases query
  | filtered parsed query drops =>
    refine ⟨_, ?_, by simp [payload?, parsed, drops]; rfl⟩
    simp [isQuiet]
  | undecodable parsed query drops decoded =>
    refine ⟨_, ?_, by simp [payload?, parsed, drops, decoded, Except.toOption]; rfl⟩
    simp [refuse, isQuiet]
  | @routed r p parsed query drops decoded =>
    refine ⟨[.count (recordCounter shape), .call (.observe r), .call (.filter r)], ?_, ?_⟩
    · simp [isQuiet]
    · simp [payload?, parsed, drops, decoded, Except.toOption]

/-- What is picked of the acts for a channel, but for those that neither write nor bind, comes from
the records that get a line. -/
lemma filterMap_acts {α : Type} {f : Act → Option α} (hf : ∀ a, isQuiet a → f a = none)
    (hquery : config.queryMode = false) (shape : Shape) (rs : List Bytes) :
    (rs.flatMap (acts (policy config) shape)).filterMap f =
      ((rs.map (Delivery.slice shape)).filterMap (payload? config)).flatMap fun p =>
        (route p).filterMap f := by
  induction rs with
  | nil => rfl
  | cons bs rs ih =>
    obtain ⟨as, has, hacts⟩ := exists_acts_eq hquery shape bs
    have hnone : as.filterMap f = [] := by
      rw [List.filterMap_eq_nil_iff]
      exact fun a ha => hf a (has a ha)
    rw [List.flatMap_cons, hacts, List.filterMap_append, List.filterMap_append, hnone, ih,
      List.map_cons, List.nil_append]
    cases hpayload : payload? config (.slice shape bs) with
    | none => simp [hpayload]
    | some p => simp [hpayload]

end Output.JsonLines

/-! ### The bindings of acts -/

def Act.binding? : Act → Option (Identifier × String)
  | .bind i name => some (i, name)
  | _ => none

lemma Act.handled?_of_isQuiet (a : Act) (ha : isQuiet a) : a.handled? = none := by
  rcases a with _ | _ | (_ | _ | _ | _ | _)
  case call.handle => cases ha
  all_goals rfl

lemma Act.binding?_of_isQuiet (a : Act) (ha : isQuiet a) : a.binding? = none := by
  cases a with
  | bind i name => cases ha
  | count c | call c => rfl

lemma filterMap_handled?_route (p : Payload) : (route p).filterMap Act.handled? = [p] := by
  cases hbinding : Dispatch.binding? p <;> simp only [route, hbinding] <;> rfl

lemma filterMap_binding?_route (p : Payload) :
    (route p).filterMap Act.binding? = (Dispatch.binding? p).toList := by
  cases hbinding : Dispatch.binding? p <;> simp only [route, hbinding] <;> rfl

/-- A dispatcher that starts without names comes to know the first bindings. -/
lemma lookup_names_run {σ : Type} (d : Dispatcher σ) (as : List Act) (i : Identifier) :
    (d.run as).names.lookup i = (d.names.lookup i).or ((as.filterMap Act.binding?).lookup i) := by
  induction as generalizing d with
  | nil => simp
  | cons a as ih =>
    rw [Dispatcher.run_cons, ih]
    cases a with
    | count c | call c => rfl
    | bind j name =>
      show ((d.names.insert j name).lookup i).or _ = _
      rw [NameTable.lookup_insert, List.filterMap_cons_some (by rfl), List.lookup_cons]
      by_cases hij : i = j
      · subst hij
        cases d.names.lookup i <;> simp
      · simp [hij, beq_false_of_ne hij]

/-- What comes first of all turns comes first among those of its reader. -/
lemma exists_lookup_turnsOf (policy : Policy) {ts : List Turn} {i : Identifier} {name : String}
    (h : ((actsOf policy ts).filterMap Act.binding?).lookup i = some name) :
    ∃ t ∈ ts, ((actsOf policy (turnsOf t.number ts)).filterMap Act.binding?).lookup i =
      some name := by
  -- the induction is on the turns, the first of which binds the name or leaves it to later ones
  induction ts with
  | nil => simp [actsOf] at h
  | cons t ts ih =>
    have hcons : ∀ us : List Turn, ((actsOf policy (t :: us)).filterMap Act.binding?).lookup i =
        (((t.act? policy).toList.filterMap Act.binding?).lookup i).or
          (((actsOf policy us).filterMap Act.binding?).lookup i) := by
      intro us
      rw [Relay.actsOf_cons, List.filterMap_append, List.lookup_append]
    rw [hcons] at h
    have hown : turnsOf t.number (t :: ts) = t :: turnsOf t.number ts := by simp [turnsOf]
    cases hfirst : ((t.act? policy).toList.filterMap Act.binding?).lookup i with
    | some first =>
      refine ⟨t, List.mem_cons_self, ?_⟩
      rw [hfirst] at h
      rw [hown, hcons, hfirst]
      exact h
    | none =>
      rw [hfirst, Option.none_or] at h
      obtain ⟨u, hu, hlookup⟩ := ih h
      refine ⟨u, List.mem_cons_of_mem _ hu, ?_⟩
      by_cases ht : t.number = u.number
      · -- the first turn is that reader's too, and does not bind the name
        rw [← ht] at hlookup ⊢
        rw [hown, hcons, hfirst, Option.none_or, hlookup]
      · -- the first turn is another reader's
        have hother : turnsOf u.number (t :: ts) = turnsOf u.number ts := by simp [turnsOf, ht]
        rw [hother, hlookup]

/-! ### The lines of a run -/

def Channel.slices (c : Channel) (content : Bytes) : List Delivery :=
  (records c.shape.size content).map (Delivery.slice c.shape)

/-- The line without what it calls the ends of a relation. -/
def Output.Line.unnamed (l : Line) : Line := { payload := l.payload }

/-- What a line calls a node. -/
def Output.Line.Names (l : Line) (i : Identifier) (name : String) : Prop :=
  ∃ rel, l.payload = .short (.relation rel) ∧
    (rel.sender = i ∧ l.sender = some name ∨ rel.receiver = i ∧ l.receiver = some name)

lemma Output.Line.Named.lookup {config : OutputConfig} {names : NameTable} {l : Line}
    (h : l.Named config names) {i : Identifier} {name : String} (hname : l.Names i name) :
    names.lookup i = some name := by
  obtain ⟨rel, hrel, ⟨rfl, hsender⟩ | ⟨rfl, hreceiver⟩⟩ := hname
  · obtain ⟨-, rel', hrel', hlookup⟩ := h.sender name hsender
    obtain rfl : rel = rel' := by simpa using hrel.symm.trans hrel'
    exact hlookup
  · obtain ⟨-, rel', hrel', hlookup⟩ := h.receiver name hreceiver
    obtain rfl : rel = rel' := by simpa using hrel.symm.trans hrel'
    exact hlookup

lemma Output.Line.Named.unnamed_eq {config : OutputConfig} {names : NameTable} {l : Line}
    (h : l.Named config names) (hresolve : config.resolveNames = false) : l.unnamed = l := by
  have hsender : l.sender = none := by
    refine Option.eq_none_iff_forall_ne_some.mpr fun name hname => ?_
    simpa [hresolve] using (h.sender name hname).1
  have hreceiver : l.receiver = none := by
    refine Option.eq_none_iff_forall_ne_some.mpr fun name hname => ?_
    simpa [hresolve] using (h.receiver name hname).1
  obtain ⟨p, sender, receiver⟩ := l
  obtain rfl : sender = none := hsender
  obtain rfl : receiver = none := hreceiver
  rfl

lemma Relay.exclusion_of_prepare {σ : Type} {config : RelayConfig} {online : ℕ} {pid : UInt32}
    {d : Dispatcher σ} {fs fs' : Files} {r : Relay σ}
    (h : prepare config online pid d fs = (fs', .ok r)) :
    Exclusion.apply config.exclusion fs = .ok fs' := by
  rcases setOut_cases config online pid d fs with ⟨gs, e, -, herror, -⟩ |
    ⟨gs, o, s, -, hok, hcleared, -⟩
  · rw [h] at herror
    cases herror
  · rw [h] at hok
    obtain ⟨rfl, -⟩ := Prod.mk.inj hok
    exact hcleared.asked

namespace Crew

/-- The readers have read what their channels hold, nothing has failed, and they have gone. -/
structure Concludes (c : Crew) (content : ℕ → Bytes) (es : List Event) : Prop where
  smooth : ∀ e ∈ es, e.isSmooth
  read : ∀ i < c.relay.readers.length, takenOf (turnsOf i (c.turns es)) = content i
  gone : ∀ x ∈ (c.run es).relay.readers, x.stage = .gone

/-- What a crew leaves behind after the lines `ls`. -/
structure Leaves (config : OutputConfig) (channels : List Channel) (content : ℕ → Bytes)
    (ls : List (ℕ × Line)) (c : Crew) : Prop where
  /-- The output has the lines, one after the other, and nothing else. -/
  written : c.out.sink.written = linesText (ls.map fun l => l.2.json)
  /-- Nothing is held back. -/
  held : c.out.held = ""
  /-- No line has an end but its own. -/
  whole : ∀ l ∈ ls, '\n' ∉ l.2.json.compact.toList
  /-- What the output has is read, line by line, as what the lines have to tell. -/
  read : (between c.out.sink.written).dropLast.map Reading.ofText? = ls.map fun l => some (.of l.2)
  counted : ls.length = c.metrics.written
  numbers : ∀ l ∈ ls, l.1 < channels.length
  /-- A channel has a line for each of its records that gets one, in their order. -/
  inOrder : ∀ (i : ℕ) (ch : Channel), channels[i]? = some ch →
    (linesOf i ls).map Line.payload = (ch.slices (content i)).filterMap (payload? config)
  /-- What the ends of relations are called are their names in the table. -/
  named : ∀ l ∈ ls, l.2.Named config c.names
  agree : ∀ l ∈ ls, ∀ m ∈ ls, ∀ i name other, l.2.Names i name → m.2.Names i other → name = other
  /-- The name of a node is the first that some channel gives it. -/
  first : ∀ i name, c.names.lookup i = some name →
    ∃ (k : ℕ) (ch : Channel), channels[k]? = some ch ∧
      FirstName config (ch.slices (content k)) i name

section

variable {config : OutputConfig} {r : Relay JsonLines} {content : ℕ → Bytes} {es : List Event}
  {c : Crew} {ls : List (ℕ × Line)} {ts : List Turn}

lemma woven_ofRelay (hhandler : r.dispatcher.handler = handler config)
    (hstate : r.dispatcher.state = .new .working) (hfresh : ∀ x ∈ r.readers, x.Fresh) :
    (ofRelay config r).Woven config "" [] [] where
  attended := ⟨fun x hx _ => (hfresh x hx).todo, fun i h hh => by cases hh⟩
  sheet :=
    { handler := hhandler
      works := fun n _ => by simp [out, ofRelay, hstate, new, Sink.working]
      exclusive := fun i l left h => by cases h
      draft := .free rfl
        (by simp [out, ofRelay, hstate, new, Sink.working, LineWriter.text, linesText])
        (by simp [out, ofRelay, hstate, new]) }
  handed i := rfl
  counted := by
    simp [Counted, metrics, ofRelay, hstate, new]
  named := ⟨rfl, by simp, fun i h hh => by cases hh⟩

lemma Attended.handovers_eq_none (h : c.Attended) (hgone : ∀ x ∈ c.relay.readers, x.stage = .gone)
    (i : ℕ) : c.handovers i = none := by
  cases hi : c.handovers i with
  | none => rfl
  | some x =>
    obtain ⟨y, hy, hstage⟩ := h.present i x hi
    exact absurd (hgone y (List.mem_of_getElem? hy)) hstage

lemma Sheet.settled {text : String} (h : c.Sheet config text)
    (hnone : ∀ i, c.handovers i = none) : c.out.sink.written = text ∧ c.out.held = "" := by
  cases h.draft with
  | free holder written held =>
    rw [LineWriter.text, held, String.append_empty] at written
    exact ⟨written, held⟩
  | taken holder writing => simp [hnone] at writing

lemma mem_linesOf {l : ℕ × Line} (hl : l ∈ ls) : l.2 ∈ linesOf l.1 ls :=
  List.mem_map.mpr ⟨l, List.mem_filter.mpr ⟨hl, by simp⟩, rfl⟩

lemma Handed.exists_turn {policy : Policy} (h : c.Handed policy ts ls) {l : ℕ × Line}
    (hl : l ∈ ls) : ∃ t ∈ ts, t.number = l.1 := by
  have hmem : l.2.payload ∈ (actsOf policy (turnsOf l.1 ts)).filterMap Act.handled? := by
    rw [← h l.1]
    exact List.mem_append_left _ (List.mem_map_of_mem (mem_linesOf hl))
  obtain ⟨a, ha, -⟩ := List.mem_filterMap.mp hmem
  obtain ⟨t, ht, -⟩ := List.mem_filterMap.mp ha
  obtain ⟨ht, hnumber⟩ := List.mem_filter.mp ht
  exact ⟨t, ht, by simpa using hnumber⟩

/-- **Readers that share an output leave whole lines**, whatever the order in which they go on. -/
lemma Concludes.leaves (hquery : config.queryMode = false)
    (hhandler : r.dispatcher.handler = handler config) (hnames : r.dispatcher.names = .empty)
    (hstate : r.dispatcher.state = .new .working) (hfresh : ∀ x ∈ r.readers, x.Fresh)
    (h : (ofRelay config r).Concludes content es) :
    ((ofRelay config r).run es).Leaves config (r.readers.map (·.channel)) content
      ((ofRelay config r).lines es) := by
  set c := ofRelay config r with hc
  have hwoven := (woven_ofRelay hhandler hstate hfresh).run es
  rw [← hc, List.nil_append, List.nil_append] at hwoven
  have hpolicy : c.policy = Output.JsonLines.policy config := by
    show r.dispatcher.handler.policy = _
    rw [hhandler]
    rfl
  have hnone := hwoven.attended.handovers_eq_none h.gone
  obtain ⟨hwritten, hheld⟩ := hwoven.sheet.settled hnone
  -- what is picked of the acts of a reader that has gone comes from the records of its channel
  have hacts : ∀ {α : Type} {f : Act → Option α}, (∀ a, isQuiet a → f a = none) →
      ∀ (i : ℕ) (ch : Channel), (r.readers.map (·.channel))[i]? = some ch →
        (actsOf c.policy (turnsOf i (c.turns es))).filterMap f =
          ((ch.slices (content i)).filterMap (payload? config)).flatMap fun p =>
            (route p).filterMap f := by
    intro α f hf i ch hch
    rw [List.getElem?_map] at hch
    obtain ⟨x, hx, rfl⟩ := Option.map_eq_some_iff.mp hch
    have hi : i < r.readers.length := (List.getElem?_eq_some_iff.mp hx).1
    rw [filterMap_acts_of_gone (hf _ rfl) (hf _ rfl) h.smooth hx
      (hfresh x (List.mem_of_getElem? hx)) fun y hy => h.gone y (List.mem_of_getElem? hy),
      h.read i hi, hpolicy, filterMap_acts hf hquery]
    rfl
  refine
    { written := hwritten.trans String.empty_append
      held := hheld
      whole := fun l _ => l.2.json.newline_notMem_compact
      read := ?_
      counted := ?_
      numbers := fun l hl => ?_
      inOrder := fun i ch hch => ?_
      named := hwoven.named.lines
      agree := fun l hl m hm i name other hname hother => ?_
      first := fun i name hname => ?_ }
  · -- the text is read line by line
    have hread := ofText?_between ((c.lines es).map Prod.snd)
    rw [List.map_map, List.map_map] at hread
    rw [hwritten, String.empty_append]
    exact hread
  · -- nothing is under way, so each line that has ended is counted
    have hcounted := hwoven.counted
    simp only [Counted, hnone, Option.elim_none, Finset.sum_const_zero, Nat.add_zero] at hcounted
    exact hcounted.symm
  · -- whoever has a line has had a turn
    obtain ⟨t, ht, hnumber⟩ := hwoven.handed.exists_turn hl
    rw [← hnumber, List.length_map]
    exact c.number_lt es t ht
  · -- nothing is under way, so a reader's lines are those of its channel's records
    have hhanded := hwoven.handed i
    rw [hnone, Option.bind_none, Option.toList_none, List.append_nil, ← hpolicy,
      hacts Act.handled?_of_isQuiet i ch hch] at hhanded
    rw [hhanded]
    simp [filterMap_handled?_route]
  · -- a name that has been found is the one in the table
    have hfirst := (hwoven.named.lines l hl).lookup hname
    have hsecond := (hwoven.named.lines m hm).lookup hother
    exact Option.some.inj (hfirst.symm.trans hsecond)
  · -- a name in the table was bound in some turn, and first so in its reader's turns
    have hempty : c.relay.dispatcher.mute.names = .empty := hnames
    rw [c.names_run es, lookup_names_run, hempty, NameTable.lookup_empty, Option.none_or] at hname
    obtain ⟨t, ht, hlookup⟩ := exists_lookup_turnsOf c.policy hname
    have hlt : t.number < r.readers.length := c.number_lt es t ht
    have hch : (r.readers.map (·.channel))[t.number]? = some r.readers[t.number].channel := by
      rw [List.getElem?_map, List.getElem?_eq_getElem hlt, Option.map_some]
    refine ⟨t.number, _, hch, firstName_iff_lookup.mpr ?_⟩
    rw [hacts Act.binding?_of_isQuiet _ _ hch] at hlookup
    simpa only [filterMap_binding?_route, List.filterMap_eq_flatMap_toList binding?] using hlookup

/-! ### Two runs -/

lemma count_eq_linesOf {α : Type} [DecidableEq α] (f : Line → α) (ls : List (ℕ × Line)) (i : ℕ)
    (a : α) : (ls.map fun l => (l.1, f l.2)).count (i, a) = ((linesOf i ls).map f).count a := by
  induction ls with
  | nil => rfl
  | cons l ls ih =>
    rw [List.map_cons, List.count_cons, ih]
    by_cases hl : l.1 = i
    · have hown : linesOf i (l :: ls) = l.2 :: linesOf i ls := by simp [linesOf, hl]
      rw [hown, List.map_cons, List.count_cons]
      simp [hl]
    · have hother : linesOf i (l :: ls) = linesOf i ls := by simp [linesOf, hl]
      rw [hother]
      simp [hl]

/-- Reordering the lines of different readers is all that can tell two lists apart that agree for
each reader. -/
lemma perm_of_linesOf {α : Type} (f : Line → α) {ls ms : List (ℕ × Line)}
    (h : ∀ i, (linesOf i ls).map f = (linesOf i ms).map f) :
    (ls.map fun l => (l.1, f l.2)).Perm (ms.map fun l => (l.1, f l.2)) := by
  classical
  rw [List.perm_iff_count]
  rintro ⟨i, a⟩
  rw [count_eq_linesOf, count_eq_linesOf, h i]

lemma linesOf_eq_nil {i n : ℕ} (h : ∀ l ∈ ls, l.1 < n) (hi : n ≤ i) : linesOf i ls = [] := by
  rw [linesOf, List.map_eq_nil_iff, List.filter_eq_nil_iff]
  intro l hl hnumber
  have hlt := h l hl
  have hsame : l.1 = i := by simpa using hnumber
  omega

variable {channels : List Channel} {c' : Crew} {ms : List (ℕ × Line)}

/-- But for what the ends of relations are called, two runs on the same contents leave the same
lines in different orders. -/
lemma Leaves.perm (h : c.Leaves config channels content ls)
    (h' : c'.Leaves config channels content ms) :
    (ls.map fun l => (l.1, l.2.unnamed)).Perm (ms.map fun l => (l.1, l.2.unnamed)) := by
  refine perm_of_linesOf Line.unnamed fun i => ?_
  have hpayloads : (linesOf i ls).map Line.payload = (linesOf i ms).map Line.payload := by
    cases hch : channels[i]? with
    | some ch => rw [h.inOrder i ch hch, h'.inOrder i ch hch]
    | none =>
      have hi := List.getElem?_eq_none_iff.mp hch
      rw [linesOf_eq_nil h.numbers hi, linesOf_eq_nil h'.numbers hi]
  have hunnamed : ∀ ks : List Line,
      ks.map Line.unnamed = (ks.map Line.payload).map fun p => { payload := p } := by
    intro ks
    rw [List.map_map]
    rfl
  rw [hunnamed, hunnamed, hpayloads]

/-- Without names there is nothing else that two runs can differ in. -/
lemma Leaves.perm_of_not_resolve (h : c.Leaves config channels content ls)
    (h' : c'.Leaves config channels content ms) (hresolve : config.resolveNames = false) :
    ls.Perm ms := by
  have hsame : ∀ {ks : List (ℕ × Line)} {names : NameTable},
      (∀ l ∈ ks, l.2.Named config names) → ks.map (fun l => (l.1, l.2.unnamed)) = ks := by
    intro ks names hks
    refine (List.map_congr_left fun l hl => ?_).trans (List.map_id ks)
    rw [(hks l hl).unnamed_eq hresolve]
    rfl
  have hperm := h.perm h'
  rwa [hsame h.named, hsame h'.named] at hperm

end

/-! ### The file of the output -/

lemma holds_run (output : OutputConfig) {r : Relay JsonLines} {path : String} {p : Place}
    {content : Bytes} (hpoised : r.Poised) (h : r.files.Holds path p content)
    (hspares : ∀ other, r.pidPath = some other → r.files.locate other ≠ r.files.locate path)
    (es : List Event) : ((ofRelay output r).run es).relay.files.Holds path p content := by
  have hmute : r.mute.Poised := ⟨hpoised.phase, hpoised.failure, hpoised.running, hpoised.acks,
    hpoised.pidFile, hpoised.readers, hpoised.fresh, hpoised.pool⟩
  have hfiled := (Relay.Filed.of_poised hmute).run hmute.orderly ((ofRelay output r).passed es)
  have hrun : (r.mute.run ((ofRelay output r).passed es)).files =
      ((ofRelay output r).run es).relay.files :=
    congrArg Relay.files ((ofRelay output r).mute_run es).symm
  rw [← hrun]
  exact Files.Holds.of_filed hfiled h hspares

/-- **Readers that share an output leave whole lines with consistent names**: whatever the order in
which they go on, the output comes to have one line for each record that is counted as written,
none inside another, each channel's in the order of its records. Two orders differ in nothing but
the order of lines and the names of the ends of relations, which are the first that some channel
gives, and the same throughout a run. The file of the output keeps what it had before. -/
theorem whole_lines_of_runs {config : Config} (hquery : config.output.queryMode = false)
    {online : ℕ} {pid : UInt32} {gs fs fs' : Files} {r : Relay JsonLines}
    (hopen : Daemon.openOutput config.output gs = .ok fs)
    (hsink : Daemon.sink config.output fs = .working)
    (hprep : Relay.prepare config.relay.toRelayConfig online pid
      (Daemon.dispatcher config (Daemon.sink config.output fs)) fs = (fs', .ok r))
    {content : ℕ → Bytes} {es es' : List Event}
    (hes : (ofRelay config.output r).Concludes content es)
    (hes' : (ofRelay config.output r).Concludes content es') :
    let c := ofRelay config.output r
    let channels := Channel.all config.relay.shortPrefix config.relay.longPrefix r.cpus
    (c.run es).Leaves config.output channels content (c.lines es) ∧
      ((c.lines es).map fun l => (l.1, l.2.unnamed)).Perm
        ((c.lines es').map fun l => (l.1, l.2.unnamed)) ∧
      (config.output.resolveNames = false → (c.lines es).Perm (c.lines es')) ∧
      ∀ path existing around, config.output.file = some path →
        (gs.find path = .ok (.file existing) ∨
          gs.find path = .error .notFound ∧ existing = []) →
        config.relay.toRelayConfig.Spares fs path →
        let d : Daemon := { config, scene := { relay := (c.run es).relay, around } }
        (d.deliver (c.run es).relay.files).2.1.find path =
          .ok (.file (existing ++
            Text.Utf8.encode (linesText ((c.lines es).map fun l => l.2.json)))) := by
  intro c channels
  rw [hsink] at hprep
  obtain ⟨hdispatcher, -, hfresh, hchannels⟩ := Relay.prepare_ok hprep
  obtain ⟨hpoised, -, -, hpidPath, -, hfiles⟩ := Relay.Poised.of_prepare hprep
  have hchannels : r.readers.map (·.channel) = channels := hchannels
  have hleaves : ∀ {fs : List Event}, c.Concludes content fs →
      (c.run fs).Leaves config.output channels content (c.lines fs) := by
    intro fs hfs
    rw [← hchannels]
    exact hfs.leaves hquery (by rw [hdispatcher]; rfl) (by rw [hdispatcher]; rfl)
      (by rw [hdispatcher]; rfl) hfresh
  have hleft := hleaves hes
  refine ⟨hleft, hleft.perm (hleaves hes'), hleft.perm_of_not_resolve (hleaves hes'), ?_⟩
  intro path existing around hfile hfound hspares d
  obtain ⟨p, htarget, hholds⟩ := Daemon.holds_of_openOutput hfile hopen hfound
  obtain ⟨hholds, hspares⟩ := hholds.of_exclusion hspares (Relay.exclusion_of_prepare hprep)
  rw [← hfiles] at hholds hspares
  have hend := holds_run config.output hpoised hholds
    (fun other hother => hspares.pidFile other (hpidPath ▸ hother)) es
  have hdeliver := Daemon.find_deliver (d := d) hfile htarget hend
  rwa [← hleft.written]

/-! ### A relation and the path of its sender -/

def etcConfig : Config where
  relay := {
    shortPrefix := "short"
    longPrefix := "long"
    cpus := some 1
    pidFile := "relay.pid"
    selfExclusion := false
    pinReaders := false }
  output := { file := some "lines" }

def etcFiles : Files where
  entries := [(["lines"], .file [35, 10]), (["short0"], .file []), (["long0"], .file [])]

def etcRelay : Relay JsonLines where
  cpus := 1
  pid := 1
  pidPath := some "relay.pid"
  readers := [{ channel := ⟨"short0", 0, .short⟩, perDrain := 1000 },
    { channel := ⟨"long0", 0, .long⟩, perDrain := 1000 }]
  pool := { workers := [.idle, .idle] }
  dispatcher := Daemon.dispatcher etcConfig .working
  files := etcFiles

/-- The short channel has a relation, and the long one the path of its sender. -/
def etcContent (i : ℕ) : Bytes := if i = 0 then etcUsed else etcPath

def etcStart : List Relay.Event :=
  [.main, .main, .main, .take 0, .take 1,
    .reader 0 .go, .reader 0 .go, .reader 0 .go, .reader 0 .go,
    .reader 1 .go, .reader 1 .go, .reader 1 .go, .reader 1 .go, .main, .main, .main, .main]

def etcRead (w : ℕ) : List Relay.Event :=
  [.reader w (.loop (.flag true)), .reader w (.loop (.polled none)),
    .reader w (.loop (.read (.data (etcContent w)))), .reader w .go, .reader w (.loop .next),
    .reader w .go, .reader w .go, .reader w .go, .reader w .go, .reader w .go]

def etcStop : List Relay.Event :=
  [.stop, .reader 0 (.loop (.flag true)), .reader 0 .go, .reader 0 .go,
    .reader 1 (.loop (.flag true)), .reader 1 .go, .reader 1 .go]

/-- One channel is read before the other. -/
def etcEvents (first second : ℕ) : List Relay.Event :=
  etcStart ++ etcRead first ++ etcRead second ++ etcStop

lemma exists_concludes_etc : ∀ o ∈ [(0, 1), (1, 0)],
    ∃ es, (ofRelay etcConfig.output etcRelay).Concludes etcContent es ∧
      (ofRelay etcConfig.output etcRelay).turns es = etcRelay.turns (etcEvents o.1 o.2) := by
  have hsmooth : ∀ o ∈ [(0, 1), (1, 0)], ∀ e ∈ etcEvents o.1 o.2, e.isSmooth := by decide +kernel
  have hgone : ∀ o ∈ [(0, 1), (1, 0)], ∀ x ∈ (etcRelay.run (etcEvents o.1 o.2)).readers,
      x.stage = .gone := by decide +kernel
  -- a test of whole contents has to go through them without piling up
  have hread : ∀ o ∈ [(0, 1), (1, 0)], ∀ i < 2,
      (takenOf (turnsOf i (etcRelay.turns (etcEvents o.1 o.2))) == etcContent i) = true := by
    decide +kernel
  intro o ho
  have hhandler : etcRelay.dispatcher.handler = handler etcConfig.output := rfl
  obtain ⟨es, hrun, hturns, hes⟩ := exists_run_ofRelay hhandler (etcEvents o.1 o.2)
  refine ⟨es, ⟨hes (hsmooth o ho), fun i hi => ?_, ?_⟩, hturns⟩
  · rw [hturns]
    exact eq_of_beq (hread o ho i hi)
  · rw [hrun]
    exact hgone o ho

/-- An instance with a relation that comes before the path of its sender in one run, and after it in
the other. -/
theorem whole_lines_of_runs_etc :
    let c := ofRelay etcConfig.output etcRelay
    ∃ es es', c.Concludes etcContent es ∧ c.Concludes etcContent es' ∧
      (c.turns es).map (·.number) ≠ (c.turns es').map (·.number) ∧
      (c.run es).Leaves etcConfig.output (Channel.all "short" "long" 1) etcContent (c.lines es) ∧
      ((c.lines es).map fun l => (l.1, l.2.unnamed)).Perm
        ((c.lines es').map fun l => (l.1, l.2.unnamed)) ∧
      let d : Daemon := {
        config := etcConfig, scene := { relay := (c.run es).relay, around := { scripts := [] } } }
      (d.deliver (c.run es).relay.files).2.1.find "lines" =
        .ok (.file ([35, 10] ++
          Text.Utf8.encode (linesText ((c.lines es).map fun l => l.2.json)))) := by
  intro c
  have hquery : etcConfig.output.queryMode = false := rfl
  have hopen : Daemon.openOutput etcConfig.output etcFiles = .ok etcFiles := by cbv
  have hsink : Daemon.sink etcConfig.output etcFiles = .working := by cbv
  have hprep : Relay.prepare etcConfig.relay.toRelayConfig 1 1
      (Daemon.dispatcher etcConfig (Daemon.sink etcConfig.output etcFiles)) etcFiles =
        (etcFiles, .ok etcRelay) := by
    rw [hsink]
    cbv
  have hfound : etcFiles.find "lines" = .ok (.file [35, 10]) := by cbv
  have hspares : etcConfig.relay.toRelayConfig.Spares etcFiles "lines" := by
    refine ⟨fun other hother => ?_, fun other hother => by cases hother⟩
    obtain rfl := Option.some.inj hother
    decide +kernel
  obtain ⟨es, hes, hturns⟩ := exists_concludes_etc (0, 1) (by simp)
  obtain ⟨es', hes', hturns'⟩ := exists_concludes_etc (1, 0) (by simp)
  have hnumbers : (etcRelay.turns (etcEvents 0 1)).map (·.number) ≠
      (etcRelay.turns (etcEvents 1 0)).map (·.number) := by decide +kernel
  obtain ⟨hleaves, hperm, -, hfile⟩ := whole_lines_of_runs hquery hopen hsink hprep hes hes'
  refine ⟨es, es', hes, hes', by rwa [hturns, hturns'], hleaves, hperm, ?_⟩
  exact hfile "lines" [35, 10] _ rfl (.inl hfound) hspares

end Crew

end ProvenanceRelay
