import Mathlib
import ProvenanceRelay.Output.Handover
import ProvenanceRelay.Proofs.LineWriting

/-!
What a step of a handover can do.

While the sink takes every write, a handover goes from stage to stage until it is counted. Its
record is under way until the line has ended, and what it has found of the names is what the table
had, which stays.
-/

namespace ProvenanceRelay

/-! ### Names that are found -/

/-- Names that are found stay. -/
def NameTable.Extends (t t' : NameTable) : Prop :=
  ∀ i name, t.lookup i = some name → t'.lookup i = some name

lemma NameTable.extends_insert (t : NameTable) (i : Identifier) (name : String) :
    t.Extends (t.insert i name) := by
  intro j other hj
  rw [lookup_insert]
  split
  · next hi =>
    subst hi
    rw [hj, Option.getD_some]
  · exact hj

lemma NameTable.extends_run {σ : Type} (d : Dispatcher σ) (a? : Option Act) :
    d.names.Extends (d.run a?.toList).names := by
  rcases a? with _ | (_ | ⟨i, name⟩ | _)
  · exact fun _ _ h => h
  · exact fun _ _ h => h
  · exact d.names.extends_insert i name
  · exact fun _ _ h => h

namespace Output

/-- An end of a relation is called by the name that the table has for it. -/
def Calls (config : OutputConfig) (names : NameTable) (side : Relation → Identifier) (p : Payload)
    (name : String) : Prop :=
  config.resolveNames = true ∧
    ∃ rel, p = .short (.relation rel) ∧ names.lookup (side rel) = some name

structure Line.Named (config : OutputConfig) (names : NameTable) (l : Line) : Prop where
  sender : ∀ name, l.sender = some name → Calls config names Relation.sender l.payload name
  receiver : ∀ name, l.receiver = some name → Calls config names Relation.receiver l.payload name

/-- What has been found so far is in the table. -/
def Handover.Named (config : OutputConfig) (names : NameTable) : Handover → Prop
  | .sender _ => config.resolveNames = true
  | .receiver r name => config.resolveNames = true ∧
      ∀ n, name = some n → Calls config names Relation.sender (.short (.relation r)) n
  | .waiting l | .writing l _ | .counting l _ => l.Named config names

variable {config : OutputConfig} {names names' : NameTable}

lemma Calls.mono (hnames : names.Extends names') {side : Relation → Identifier} {p : Payload}
    {name : String} (h : Calls config names side p name) : Calls config names' side p name := by
  obtain ⟨hresolve, rel, hp, hname⟩ := h
  exact ⟨hresolve, rel, hp, hnames _ _ hname⟩

lemma Line.Named.mono (hnames : names.Extends names') {l : Line} (h : l.Named config names) :
    l.Named config names' where
  sender name hname := (h.sender name hname).mono hnames
  receiver name hname := (h.receiver name hname).mono hnames

lemma Handover.Named.mono (hnames : names.Extends names') {h : Handover}
    (hh : h.Named config names) : h.Named config names' := by
  cases h with
  | sender r => exact hh
  | receiver r name => exact ⟨hh.1, fun n hn => (hh.2 n hn).mono hnames⟩
  | waiting l | writing l left | counting l written => exact Line.Named.mono hnames hh

lemma Handover.named_start (names : NameTable) (p : Payload) :
    (Handover.start config.resolveNames p).Named config names := by
  have hline : ∀ q : Payload, Line.Named config names { payload := q } := by
    intro q
    constructor <;> intro name hname <;> cases hname
  unfold Handover.start
  split
  · split
    · assumption
    · exact hline _
  · exact hline _

end Output

/-! ### Steps of a handover -/

namespace Output.Handover

/-- What a step of a handover can do while the sink takes every write. -/
inductive Advance (names : NameTable) (i : ℕ) (d : Desk) :
    Handover → Desk → Option Handover → Option Line → Prop
  | sender (r : Relation) :
      Advance names i d (.sender r) d (some (.receiver r (names.lookup r.sender))) none
  | receiver (r : Relation) (name : Option String) :
      Advance names i d (.receiver r name) d
        (some (.waiting ⟨.short (.relation r), name, names.lookup r.receiver⟩)) none
  | blocked {j : ℕ} (l : Line) (holder : d.holder = some j) :
      Advance names i d (.waiting l) d (some (.waiting l)) none
  | enter (l : Line) (holder : d.holder = none) :
      Advance names i d (.waiting l) { d with holder := some i }
        (some (.writing l l.json.pieces)) none
  | part {out : LineWriter} (l : Line) (t : String) (ts : List String)
    (grown : d.state.out.Grown t out) :
      Advance names i d (.writing l (t :: ts)) { d with state := { d.state with out } }
        (some (.writing l ts)) none
  | ended {out : LineWriter} (l : Line)
    (grown : d.state.out.Grown "\n" out)
    (held : out.held = "") :
      Advance names i d (.writing l []) { state := { d.state with out } }
        (some (.counting l true)) (some l)
  | counted (l : Line) :
      Advance names i d (.counting l true)
        { d with state := { d.state with metrics := d.state.metrics.write l.payload.kind } }
        none none
  | failed (l : Line) :
      Advance names i d (.counting l false)
        { d with state := { d.state with metrics := d.state.metrics.fail } } none none

lemma advance_of_works {d : Desk} (hworks : d.state.out.Works) (names : NameTable) (i : ℕ)
    (h : Handover) : Advance names i d h (h.advance names i d).1 (h.advance names i d).2
      (h.ended? d) := by
  cases h with
  | sender r => exact .sender r
  | receiver r name => exact .receiver r name
  | waiting l =>
    cases hholder : d.holder with
    | none => simpa only [advance, ended?, hholder] using Advance.enter l hholder
    | some j => simpa only [advance, ended?, hholder] using Advance.blocked l hholder
  | writing l left =>
    cases left with
    | cons t ts =>
      obtain ⟨out, hpart, hgrown⟩ := LineWriter.part_of_works hworks t
      simpa only [advance, ended?, hpart] using Advance.part l t ts hgrown
    | nil =>
      obtain ⟨out, hnewline, hgrown, hheld⟩ := LineWriter.newline_of_works hworks
      simpa only [advance, ended?, hnewline, if_true] using Advance.ended l hgrown hheld
  | counting l written =>
    cases written with
    | true => exact .counted l
    | false => exact .failed l

def pending? : Handover → Option Payload
  | .sender r | .receiver r _ => some (.short (.relation r))
  | .waiting l | .writing l _ => some l.payload
  | .counting _ _ => none

/-- How many records are yet to be counted though their lines have ended. -/
def uncounted : Handover → ℕ
  | .counting _ true => 1
  | _ => 0

section

variable {names : NameTable} {i : ℕ} {d d' : Desk} {h : Handover} {h' : Option Handover}
  {l? : Option Line}

lemma Advance.pending_eq (ha : Advance names i d h d' h' l?) :
    h.pending?.toList = (l?.map Line.payload).toList ++ (h'.bind pending?).toList := by
  cases ha <;> rfl

lemma Advance.written_eq (ha : Advance names i d h d' h' l?) :
    d'.state.metrics.written + h'.elim 0 uncounted =
      d.state.metrics.written + h.uncounted + l?.toList.length := by
  cases ha <;> rfl

end

lemma Advance.named {names : NameTable} {i : ℕ} {d d' : Desk} {h : Handover} {h' : Option Handover}
    {l? : Option Line} {config : OutputConfig} (ha : Advance names i d h d' h' l?)
    (hnamed : h.Named config names) :
    (∀ x, h' = some x → x.Named config names) ∧ ∀ l, l? = some l → l.Named config names := by
  refine ⟨fun x hx => ?_, fun l hl => ?_⟩
  · cases ha with
    | sender r =>
      obtain rfl := Option.some.inj hx
      exact ⟨hnamed, fun n hn => ⟨hnamed, r, rfl, hn⟩⟩
    | receiver r name =>
      obtain rfl := Option.some.inj hx
      exact ⟨hnamed.2, fun n hn => ⟨hnamed.1, r, rfl, hn⟩⟩
    | blocked | enter | part | ended =>
      obtain rfl := Option.some.inj hx
      exact hnamed
    | counted | failed => cases hx
  · cases ha with
    | ended =>
      obtain rfl := Option.some.inj hl
      exact hnamed
    | _ => cases hl

lemma pending?_start (resolve : Bool) (p : Payload) : (start resolve p).pending? = some p := by
  unfold start
  split
  · split <;> rfl
  · rfl

lemma uncounted_start (resolve : Bool) (p : Payload) : (start resolve p).uncounted = 0 := by
  unfold start
  split
  · split <;> rfl
  · rfl

lemma start_ne_writing (resolve : Bool) (p : Payload) (l : Line) (left : List String) :
    some (start resolve p) ≠ some (.writing l left) := by
  unfold start
  split
  · split <;> simp
  · simp

end Output.Handover

end ProvenanceRelay
