import Mathlib
import ProvenanceRelay.Proofs.Conservation
import ProvenanceRelay.Proofs.CrewTurns
import ProvenanceRelay.Proofs.Handovers
import ProvenanceRelay.Proofs.LineOutput

/-!
What readers that share an output keep, whatever the order in which they go on.

The output has whole lines, and of the line that is being written the parts that are written. No
record gets lost between a reader and the output, and none is counted before its line has ended.
What a line calls the ends of a relation are their names in the table, for good.
-/

namespace ProvenanceRelay

open Output Output.JsonLines
open Relay (Turn actsOf turnsOf)

/-! ### Readers that hand over -/

namespace Reader

/-- A reader that has gone has nothing left to do. -/
def Spent (r : Reader) : Prop := r.stage = .gone → r.todo = []

variable {policy : Policy} {r : Reader} {n : News}

/-- A reader with nothing left to do hands nothing over, and is still without when it has gone. -/
lemma move_idle (htodo : r.todo = []) (n : News) :
    ((r.move policy n).1.stage = .gone → (r.move policy n).1.todo = []) ∧
      ∀ p, (r.move policy n).2 ≠ some (.act (.call (.handle p))) := by
  cases n with
  | pinned fault =>
    simp only [Reader.move]
    split
    · split <;> simp [htodo]
    · split <;> simp [htodo]
    · simp [htodo]
  | loop i =>
    simp only [Reader.move]
    split <;> simp [htodo]
  | go =>
    simp only [Reader.move]
    split
    · split <;> simp [htodo]
    · simp [htodo]
    · simp [htodo]
    · simp [htodo]
    · split <;> simp [htodo]
    all_goals simp [htodo]
  | panic =>
    simp only [Reader.move]
    split <;> simp [htodo]

lemma Spent.stage_of_todo (h : r.Spent) (htodo : r.todo ≠ []) (n : News) :
    (r.step policy n).1.stage ≠ .gone := by
  have hstage : r.stage ≠ .gone := fun hgone => htodo (h hgone)
  unfold Reader.step
  split
  · next hnil => exact absurd hnil htodo
  · exact hstage
  · dsimp only
    split <;> simp
  · exact hstage

lemma Spent.step (h : r.Spent) (n : News) : (r.step policy n).1.Spent := by
  cases htodo : r.todo with
  | nil =>
    have hmove : r.step policy n = r.move policy n := by simp [Reader.step, htodo]
    rw [hmove]
    exact (move_idle htodo n).1
  | cons a as =>
    intro hgone
    exact absurd hgone (h.stage_of_todo (by simp [htodo]) n)

lemma Spent.stage_of_handed (h : r.Spent) {p : Payload}
    (hact : r.actOf? policy n = some (.call (.handle p))) : (r.step policy n).1.stage ≠ .gone := by
  refine h.stage_of_todo (fun htodo => ?_) n
  have hmove : r.step policy n = r.move policy n := by simp [Reader.step, htodo]
  rw [actOf?, hmove] at hact
  split at hact
  · next a heffect => exact (move_idle htodo n).2 p (Option.some.inj hact ▸ heffect)
  · cases hact

end Reader

namespace Crew

variable {config : OutputConfig} {c c' : Crew} {t? : Option Turn} {l? : Option (ℕ × Line)}

lemma handovers_place (c : Crew) (i j : ℕ) (h : Option Handover) :
    (c.place i h).handovers j = if j = i then h else c.handovers j := rfl

@[simp] lemma handovers_setDesk (c : Crew) (d : Desk) : (c.setDesk d).handovers = c.handovers := rfl

/-! ### Who hands over -/

/-- Readers with a record under way are there, and have not gone. -/
structure Attended (c : Crew) : Prop where
  spent : ∀ x ∈ c.relay.readers, x.Spent
  present : ∀ i h, c.handovers i = some h →
    ∃ x, c.relay.readers[i]? = some x ∧ x.stage ≠ .gone

lemma Attended.turn {t : Turn} {r : Relay JsonLines} (h : c.Attended)
    (hstep : c.relay.TurnStep t r) :
    (∀ x ∈ r.readers, x.Spent) ∧ ∀ i ≠ t.number, r.readers[i]? = c.relay.readers[i]? := by
  have ht : t.reader ∈ c.relay.readers := List.mem_of_getElem? hstep.reader
  rw [hstep.readers]
  refine ⟨fun x hx => ?_, fun i hi => List.getElem?_set_ne (Ne.symm hi)⟩
  rcases List.mem_or_eq_of_mem_set hx with hx | rfl
  · exact h.spent x hx
  · exact (h.spent _ ht).step t.news

lemma Attended.of_move (h : c.Attended) (hm : c.Move t? l? c') : c'.Attended := by
  cases hm with
  | rest => exact h
  | quiet step =>
    obtain ⟨hspent, hpresent⟩ := h
    rw [← step.readers] at hspent hpresent
    exact ⟨hspent, hpresent⟩
  | @turn t r free step plain =>
    obtain ⟨hspent, hother⟩ := h.turn step
    refine ⟨hspent, fun i x hx => ?_⟩
    have hi : i ≠ t.number := by
      rintro rfl
      simp [free] at hx
    show ∃ y, r.readers[i]? = some y ∧ _
    rw [hother i hi]
    exact h.present i x hx
  | @depart t r p free step act =>
    obtain ⟨hspent, hother⟩ := h.turn step
    refine ⟨hspent, fun i x hx => ?_⟩
    show ∃ y, r.readers[i]? = some y ∧ _
    by_cases hi : i = t.number
    · subst hi
      have hlt := (List.getElem?_eq_some_iff.mp step.reader).1
      refine ⟨_, by rw [step.readers, List.getElem?_set_self hlt], ?_⟩
      exact (h.spent _ (List.mem_of_getElem? step.reader)).stage_of_handed act
    · rw [handovers_place, if_neg hi] at hx
      rw [hother i hi]
      exact h.present i x hx
  | @handover i x underway =>
    refine ⟨h.spent, fun j y hy => ?_⟩
    show ∃ y, c.relay.readers[j]? = some y ∧ _
    by_cases hj : j = i
    · subst hj
      exact h.present j x underway
    · rw [handovers_place, if_neg hj] at hy
      exact h.present j y hy

/-! ### What the output has -/

lemma run_of_plain {d : Dispatcher JsonLines} (hhandler : d.handler = handler config)
    {a? : Option Act} (hplain : a?.bind Act.handled? = none) :
    (d.run a?.toList).state.out = d.state.out ∧
      (d.run a?.toList).state.metrics.written = d.state.metrics.written := by
  cases a? with
  | none => exact ⟨rfl, rfl⟩
  | some a =>
    show (d.perform a).state.out = _ ∧ (d.perform a).state.metrics.written = _
    rw [out_perform hhandler]
    cases a with
    | count k | bind i name => exact ⟨rfl, rfl⟩
    | call k =>
      rw [perform_call hhandler]
      cases k with
      | init | observe | report => exact ⟨rfl, rfl⟩
      | filter r =>
        refine ⟨rfl, ?_⟩
        rw [respond, metrics_noteFilter]
        split <;> rfl
      | handle p => cases hplain

/-- The output has a text, and what is written of the line that is being written. -/
inductive Draft (c : Crew) (text : String) : Prop
  | free (holder : c.holder = none) (written : c.out.text = text) (held : c.out.held = "")
  | taken {i : ℕ} {l : Line} {given left : List String}
    (holder : c.holder = some i)
    (writing : c.handovers i = some (.writing l left))
    (pieces : l.json.pieces = given ++ left)
    (written : c.out.text = text ++ String.join given)

/-- The output works, and whoever writes has it to itself. -/
structure Sheet (config : OutputConfig) (text : String) (c : Crew) : Prop where
  handler : c.relay.dispatcher.handler = handler config
  works : c.out.Works
  exclusive : ∀ i l left, c.handovers i = some (.writing l left) → c.holder = some i
  draft : c.Draft text

variable {text : String} {i : ℕ} {x : Handover}

lemma Sheet.congr (h : c.Sheet config text)
    (hhandler : c'.relay.dispatcher.handler = c.relay.dispatcher.handler) (hout : c'.out = c.out)
    (hholder : c'.holder = c.holder) (hhandovers : c'.handovers = c.handovers) :
    c'.Sheet config text where
  handler := hhandler.trans h.handler
  works := by
    rw [hout]
    exact h.works
  exclusive := by
    rw [hholder, hhandovers]
    exact h.exclusive
  draft := by
    cases h.draft with
    | free holder written held =>
      exact .free (hholder.trans holder) (by rw [hout, written]) (by rw [hout, held])
    | taken holder writing pieces written =>
      exact .taken (hholder.trans holder) (by rw [hhandovers, writing]) pieces
        (by rw [hout, written])

lemma Sheet.holder_ne (h : c.Sheet config text)
    (hidle : ∀ l left, c.handovers i ≠ some (.writing l left)) : c.holder ≠ some i := by
  intro hholder
  cases h.draft with
  | free holder => simp [hholder] at holder
  | taken holder writing =>
    obtain rfl := Option.some.inj (hholder.symm.trans holder)
    exact hidle _ _ writing

lemma Sheet.place (h : c.Sheet config text) (hholder : c.holder ≠ some i) {y : Option Handover}
    (hy : ∀ l left, y ≠ some (.writing l left)) : Sheet config text (c.place i y) where
  handler := h.handler
  works := h.works
  exclusive j l left hj := by
    rw [handovers_place] at hj
    split at hj
    · exact absurd hj (hy l left)
    · exact h.exclusive j l left hj
  draft := by
    cases h.draft with
    | free holder written held => exact .free holder written held
    | @taken j _ _ _ holder writing pieces written =>
      have hj : j ≠ i := by
        rintro rfl
        exact hholder holder
      exact .taken holder (by rw [handovers_place, if_neg hj, writing]) pieces written

lemma Sheet.aside (h : c.Sheet config text)
    (hidle : ∀ l left, c.handovers i ≠ some (.writing l left)) {d : Desk}
    (hout : d.state.out = c.out) (hholder : d.holder = c.holder) {y : Option Handover}
    (hy : ∀ l left, y ≠ some (.writing l left)) : Sheet config text ((c.setDesk d).place i y) := by
  have hdesk : Sheet config text (c.setDesk d) := h.congr rfl hout hholder rfl
  refine hdesk.place ?_ hy
  show d.holder ≠ some i
  rw [hholder]
  exact h.holder_ne hidle

lemma Sheet.enter (h : c.Sheet config text) {l : Line} (hholder : c.holder = none) :
    Sheet config text
      ((c.setDesk { c.desk with holder := some i }).place i (some (.writing l l.json.pieces))) where
  handler := h.handler
  works := h.works
  exclusive j m left hj := by
    rw [handovers_place] at hj
    split at hj
    · next hji => rw [hji]; rfl
    · exact absurd (h.exclusive j m left hj) (by simp [hholder])
  draft := by
    cases h.draft with
    | taken holder => simp [hholder] at holder
    | free holder written held =>
      have hpieces : l.json.pieces = [] ++ l.json.pieces := rfl
      refine .taken rfl (by rw [handovers_place, if_pos rfl]) hpieces ?_
      rw [String.join_nil, String.append_empty]
      exact written

/-- What is written of a line is what has been given of it. -/
lemma Sheet.draft_of_writing (h : c.Sheet config text) {l : Line} {left : List String}
    (hx : c.handovers i = some (.writing l left)) :
    ∃ given, l.json.pieces = given ++ left ∧ c.out.text = text ++ String.join given := by
  have hholder := h.exclusive i l left hx
  cases h.draft with
  | free holder => simp [hholder] at holder
  | taken holder writing pieces written =>
    obtain rfl := Option.some.inj (hholder.symm.trans holder)
    obtain ⟨rfl, rfl⟩ := Handover.writing.inj (Option.some.inj (hx.symm.trans writing))
    exact ⟨_, pieces, written⟩

lemma Sheet.part (h : c.Sheet config text) {l : Line} {t : String} {ts : List String}
    (hx : c.handovers i = some (.writing l (t :: ts))) {out : LineWriter}
    (hgrown : c.out.Grown t out) :
    Sheet config text
      ((c.setDesk { c.desk with state := { c.desk.state with out } }).place i
        (some (.writing l ts))) where
  handler := h.handler
  works := hgrown.works
  exclusive j m left hj := by
    rw [handovers_place] at hj
    split at hj
    · next hji => exact hji ▸ h.exclusive i l _ hx
    · exact h.exclusive j m left hj
  draft := by
    obtain ⟨given, hpieces, htext⟩ := h.draft_of_writing hx
    have hmore : l.json.pieces = given ++ [t] ++ ts := by
      rw [hpieces, List.append_assoc]
      rfl
    refine .taken (h.exclusive i l _ hx) (by rw [handovers_place, if_pos rfl]) hmore ?_
    show out.text = _
    rw [hgrown.text, htext, String.join_append, String.append_assoc]
    simp

lemma Sheet.ended (h : c.Sheet config text) {l : Line}
    (hx : c.handovers i = some (.writing l [])) {out : LineWriter}
    (hgrown : c.out.Grown "\n" out) (hheld : out.held = "") :
    Sheet config (text ++ linesText [l.json])
      ((c.setDesk { state := { c.desk.state with out } }).place i (some (.counting l true))) where
  handler := h.handler
  works := hgrown.works
  exclusive j m left hj := by
    rw [handovers_place] at hj
    split at hj
    · cases hj
    · next hji =>
      have hholder := (h.exclusive j m left hj).symm.trans (h.exclusive i l _ hx)
      exact absurd (Option.some.inj hholder) hji
  draft := by
    obtain ⟨given, hpieces, htext⟩ := h.draft_of_writing hx
    refine .free rfl ?_ hheld
    show out.text = _
    rw [List.append_nil] at hpieces
    rw [hgrown.text, htext, String.append_assoc, ← hpieces, ← Json.compact]
    simp [linesText]

/-- **The output has whole lines and the beginning of at most one more.** -/
lemma Sheet.of_move (h : c.Sheet config text) (hm : c.Move t? l? c') :
    Sheet config (text ++ linesText (l?.toList.map fun l => l.2.json)) c' := by
  have hnone : text ++ linesText [] = text := by simp [linesText]
  cases hm with
  | rest => simpa only [Option.toList_none, List.map_nil, hnone] using h
  | quiet step =>
    rw [Option.toList_none, List.map_nil, hnone]
    exact h.congr (by rw [step.dispatcher]) (by rw [out, step.dispatcher]; rfl) rfl rfl
  | @turn t r free step plain =>
    rw [Option.toList_none, List.map_nil, hnone]
    have hplain := run_of_plain h.handler plain
    rw [policy, ← step.dispatcher] at hplain
    exact h.congr (by rw [step.dispatcher, Dispatcher.handler_run]) hplain.1 rfl rfl
  | @depart t r p free step act =>
    rw [Option.toList_none, List.map_nil, hnone]
    have hrelay : Sheet config text
        { c with relay := { r with dispatcher := c.relay.dispatcher } } :=
      h.congr rfl rfl rfl rfl
    exact hrelay.place (h.holder_ne (by simp [free])) (Handover.start_ne_writing c.resolve p)
  | @handover i x underway =>
    -- only a step that enters, writes or ends a line touches the output
    have hadvance := x.advance_of_works (d := c.desk) h.works c.names i
    generalize (x.advance c.names i c.desk).1 = d, (x.advance c.names i c.desk).2 = y,
      x.ended? c.desk = l? at hadvance
    cases hadvance with
    | sender | receiver | blocked | counted | failed =>
      rw [Option.map_none, Option.toList_none, List.map_nil, hnone]
      exact h.aside (by simp [underway]) rfl rfl (by simp)
    | enter l holder =>
      rw [Option.map_none, Option.toList_none, List.map_nil, hnone]
      exact h.enter holder
    | part l t ts grown =>
      rw [Option.map_none, Option.toList_none, List.map_nil, hnone]
      exact h.part underway grown
    | ended l grown held => exact h.ended underway grown held

/-! ### No record is lost -/

def linesOf (i : ℕ) (ls : List (ℕ × Line)) : List Line := (ls.filter (·.1 = i)).map Prod.snd

lemma linesOf_append (i : ℕ) (ls ms : List (ℕ × Line)) :
    linesOf i (ls ++ ms) = linesOf i ls ++ linesOf i ms := by
  simp [linesOf]

/-- What a reader has handed over is in its lines or under way. -/
def Handed (policy : Policy) (ts : List Turn) (ls : List (ℕ × Line)) (c : Crew) : Prop :=
  ∀ i, (linesOf i ls).map Line.payload ++ ((c.handovers i).bind Handover.pending?).toList =
    (actsOf policy (turnsOf i ts)).filterMap Act.handled?

variable {ts : List Turn} {ls : List (ℕ × Line)}

lemma filterMap_actsOf_append (policy : Policy) (i : ℕ) (t : Turn) :
    (actsOf policy (turnsOf i (ts ++ [t]))).filterMap Act.handled? =
      (actsOf policy (turnsOf i ts)).filterMap Act.handled? ++
        if t.number = i then ((t.act? policy).bind Act.handled?).toList else [] := by
  have hsplit : turnsOf i (ts ++ [t]) = turnsOf i ts ++ if t.number = i then [t] else [] := by
    by_cases hi : t.number = i <;> simp [turnsOf, hi]
  rw [hsplit, actsOf, List.filterMap_append, List.filterMap_append, ← actsOf]
  by_cases hi : t.number = i
  · rw [if_pos hi, if_pos hi]
    cases hact : t.act? policy with
    | none => simp [hact]
    | some a => cases hhanded : a.handled? <;> simp [hact, hhanded]
  · simp [hi]

lemma Handed.of_move (h : c.Handed c.policy ts ls) (hworks : c.out.Works) (hm : c.Move t? l? c') :
    c'.Handed c.policy (ts ++ t?.toList) (ls ++ l?.toList) := by
  intro i
  cases hm with
  | rest | quiet step => simpa using h i
  | turn free step plain =>
    rw [Option.toList_some, Option.toList_none, List.append_nil, filterMap_actsOf_append, plain]
    simpa using h i
  | @depart t r p free step act =>
    rw [Option.toList_some, Option.toList_none, List.append_nil, filterMap_actsOf_append, act,
      handovers_place, ← h i]
    by_cases hi : i = t.number
    · simp [hi, free, Handover.pending?_start, Act.handled?]
    · simp [hi, Ne.symm hi]
  | @handover j x underway =>
    have hadvance := (x.advance_of_works (d := c.desk) hworks c.names j).pending_eq
    rw [Option.toList_none, List.append_nil, linesOf_append, handovers_place, ← h i]
    by_cases hi : i = j
    · subst hi
      rw [if_pos rfl, underway, Option.bind_some, hadvance]
      cases x.ended? c.desk <;> simp [linesOf]
    · rw [if_neg hi, handovers_setDesk]
      cases x.ended? c.desk <;> simp [linesOf, Ne.symm hi]

/-! ### No record is counted too early -/

/-- What is counted as written are the lines that have ended, but for those yet to be counted. -/
def Counted (ls : List (ℕ × Line)) (c : Crew) : Prop :=
  c.metrics.written +
    ∑ i ∈ Finset.range c.relay.readers.length, (c.handovers i).elim 0 Handover.uncounted = ls.length

lemma sum_place {i n : ℕ} (hi : i < n) (y : Option Handover) (f : Handover → ℕ) :
    ∑ j ∈ Finset.range n, ((c.place i y).handovers j).elim 0 f + (c.handovers i).elim 0 f =
      ∑ j ∈ Finset.range n, (c.handovers j).elim 0 f + y.elim 0 f := by
  have hmem : i ∈ Finset.range n := Finset.mem_range.mpr hi
  have hrest : ∑ j ∈ (Finset.range n).erase i, ((c.place i y).handovers j).elim 0 f =
      ∑ j ∈ (Finset.range n).erase i, (c.handovers j).elim 0 f := by
    refine Finset.sum_congr rfl fun j hj => ?_
    rw [handovers_place, if_neg (Finset.ne_of_mem_erase hj)]
  rw [← Finset.add_sum_erase _ _ hmem, ← Finset.add_sum_erase _ _ hmem, hrest, handovers_place,
    if_pos rfl]
  omega

lemma Counted.of_move (h : c.Counted ls) (hsheet : c.Sheet config text) (hc : c.Attended)
    (hm : c.Move t? l? c') : c'.Counted (ls ++ l?.toList) := by
  cases hm with
  | rest => simpa using h
  | @quiet r step =>
    rw [Option.toList_none, List.append_nil, Counted, metrics, step.dispatcher, step.readers]
    exact h
  | @turn t r free step plain =>
    have hplain := (run_of_plain hsheet.handler plain).2
    rw [policy, ← step.dispatcher] at hplain
    rw [Option.toList_none, List.append_nil, Counted, metrics, hplain, step.readers,
      List.length_set]
    exact h
  | @depart t r p free step act =>
    have hlt := (List.getElem?_eq_some_iff.mp step.reader).1
    have hsum := c.sum_place hlt (some (.start c.resolve p)) Handover.uncounted
    rw [free, Option.elim_none, Option.elim_some, Handover.uncounted_start] at hsum
    rw [Option.toList_none, List.append_nil]
    show c.metrics.written + ∑ i ∈ Finset.range r.readers.length, _ = _
    rw [step.readers, List.length_set]
    exact (congrArg (c.metrics.written + ·) hsum).trans h
  | @handover j x underway =>
    obtain ⟨y, hy, -⟩ := hc.present j x underway
    have hlt := (List.getElem?_eq_some_iff.mp hy).1
    have hadvance := (x.advance_of_works (d := c.desk) hsheet.works c.names j).written_eq
    have hsum := c.sum_place hlt (x.advance c.names j c.desk).2 Handover.uncounted
    rw [underway, Option.elim_some] at hsum
    have hbefore : c.metrics.written + _ = ls.length := h
    have hdesk : c.desk.state.metrics.written = c.metrics.written := rfl
    show (x.advance c.names j c.desk).1.state.metrics.written +
      ∑ i ∈ Finset.range c.relay.readers.length,
        ((c.place j (x.advance c.names j c.desk).2).handovers i).elim 0 Handover.uncounted = _
    have hlength : ((x.ended? c.desk).map fun l => (j, l)).toList.length =
        (x.ended? c.desk).toList.length := by cases x.ended? c.desk <;> rfl
    rw [List.length_append, hlength]
    omega

/-! ### Names -/

/-- The ends of relations are called by their names in the table. -/
structure Named (config : OutputConfig) (ls : List (ℕ × Line)) (c : Crew) : Prop where
  resolve : c.resolve = config.resolveNames
  lines : ∀ l ∈ ls, l.2.Named config c.names
  handovers : ∀ i h, c.handovers i = some h → h.Named config c.names

lemma Named.of_extends (h : c.Named config ls) (hresolve : c'.resolve = c.resolve)
    (hnames : c.names.Extends c'.names) (hhandovers : c'.handovers = c.handovers) :
    c'.Named config ls where
  resolve := hresolve.trans h.resolve
  lines l hl := (h.lines l hl).mono hnames
  handovers i x hx := (h.handovers i x (hhandovers ▸ hx)).mono hnames

lemma Named.place (h : c.Named config ls) {y : Option Handover}
    (hy : ∀ x, y = some x → x.Named config c.names) : Named config ls (c.place i y) where
  resolve := h.resolve
  lines := h.lines
  handovers j x hx := by
    rw [handovers_place] at hx
    split at hx
    · exact hy x hx
    · exact h.handovers j x hx

lemma Named.of_move (h : c.Named config ls) (hworks : c.out.Works) (hm : c.Move t? l? c') :
    c'.Named config (ls ++ l?.toList) := by
  cases hm with
  | rest => simpa using h
  | quiet step =>
    rw [Option.toList_none, List.append_nil]
    exact h.of_extends rfl (by rw [names, names, step.dispatcher]; exact fun _ _ h => h) rfl
  | turn free step plain =>
    rw [Option.toList_none, List.append_nil]
    refine h.of_extends rfl ?_ rfl
    rw [names, names, step.dispatcher]
    exact NameTable.extends_run _ _
  | @depart t r p free step act =>
    rw [Option.toList_none, List.append_nil]
    have hrelay : Named config ls { c with relay := { r with dispatcher := c.relay.dispatcher } } :=
      h.of_extends rfl (fun _ _ h => h) rfl
    refine hrelay.place fun x hx => ?_
    obtain rfl := Option.some.inj hx
    rw [h.resolve]
    exact Handover.named_start _ p
  | @handover j x underway =>
    have hadvance := x.advance_of_works (d := c.desk) hworks c.names j
    obtain ⟨hnext, hline⟩ := hadvance.named (h.handovers j x underway)
    have hdesk : Named config ls (c.setDesk (x.advance c.names j c.desk).1) :=
      h.of_extends rfl (fun _ _ h => h) rfl
    refine ⟨h.resolve, fun l hl => ?_, (hdesk.place hnext).handovers⟩
    rcases List.mem_append.mp hl with hl | hl
    · exact h.lines l hl
    · obtain ⟨m, hm, rfl⟩ := Option.map_eq_some_iff.mp (Option.mem_toList.mp hl)
      exact hline m hm

/-! ### Runs -/

/-- What holds of readers that share an output, after the turns `ts` and the lines `ls`. -/
structure Woven (config : OutputConfig) (before : String) (ts : List Turn) (ls : List (ℕ × Line))
    (c : Crew) : Prop where
  attended : c.Attended
  sheet : c.Sheet config (before ++ linesText (ls.map fun l => l.2.json))
  handed : c.Handed (Output.JsonLines.policy config) ts ls
  counted : c.Counted ls
  named : c.Named config ls

lemma Woven.step {before : String} (h : c.Woven config before ts ls) (e : Event) :
    (c.step e).Woven config before (ts ++ (c.turn? e).toList) (ls ++ (c.ended? e).toList) where
  attended := h.attended.of_move (c.move e)
  sheet := by
    have hsheet := h.sheet.of_move (c.move e)
    rw [String.append_assoc, ← linesText_append] at hsheet
    rwa [List.map_append]
  handed := by
    have hpolicy : c.policy = Output.JsonLines.policy config := by
      rw [policy, h.sheet.handler]
      rfl
    have hhanded := h.handed
    rw [← hpolicy] at hhanded ⊢
    exact hhanded.of_move h.sheet.works (c.move e)
  counted := h.counted.of_move h.sheet h.attended (c.move e)
  named := h.named.of_move h.sheet.works (c.move e)

lemma Woven.run {before : String} (h : c.Woven config before ts ls) (es : List Event) :
    (c.run es).Woven config before (ts ++ c.turns es) (ls ++ c.lines es) := by
  induction es generalizing c ts ls with
  | nil => simpa [turns, lines] using h
  | cons e es ih =>
    rw [run_cons, turns, lines, ← List.append_assoc, ← List.append_assoc]
    exact ih (h.step e)

end Crew

end ProvenanceRelay
