import Mathlib
import ProvenanceRelay.Output.JsonLines

/-!
Lines that reach a sink which takes every write.

What has been written and what is still held make up the text so far, and every operation of the
writer lets that text grow by what it is given. Nothing is held once a line has ended, so the sink
has the line then. Of the acts of a dispatch only the handling of a record writes.
-/

namespace ProvenanceRelay.Output

namespace LineWriter

/-- The text so far: what the sink has and what is held. -/
def text (w : LineWriter) : String := w.sink.written ++ w.held

/-- The sink takes every write from now on. -/
def Works (w : LineWriter) : Prop := ∀ n, w.sink.writes ≤ n → w.sink.accepts n = true

/-- A writer that still works and has come to have more text. -/
structure Grown (w : LineWriter) (t : String) (w' : LineWriter) : Prop where
  works : w'.Works
  text : w'.text = w.text ++ t

variable {w : LineWriter}

lemma Grown.trans {w' w'' : LineWriter} {t t' : String} (h : w.Grown t w') (h' : w'.Grown t' w'') :
    w.Grown (t ++ t') w'' where
  works := h'.works
  text := by rw [h'.text, h.text, String.append_assoc]

lemma write_of_works (h : w.Works) (t : String) :
    w.sink.write t =
      ({ w.sink with writes := w.sink.writes + 1, written := w.sink.written ++ t }, true) := by
  rw [Sink.write, if_pos (h _ le_rfl)]

lemma Works.later (h : w.Works) {w' : LineWriter} (haccepts : w'.sink.accepts = w.sink.accepts)
    (hwrites : w.sink.writes ≤ w'.sink.writes) : w'.Works := by
  intro n hn
  rw [haccepts]
  exact h n (hwrites.trans hn)

lemma flush_of_works (h : w.Works) : ∃ w', w.flush = (w', true) ∧ w.Grown "" w' ∧ w'.held = "" := by
  unfold flush
  split
  · rename_i hheld
    have hempty : w.held = "" := String.isEmpty_iff.mp hheld
    exact ⟨w, rfl, ⟨h, by simp⟩, hempty⟩
  · rw [write_of_works h]
    exact ⟨_, rfl, ⟨h.later rfl (Nat.le_succ _), by simp [text]⟩, rfl⟩

/-- Room is made by handing on what is held. Text as large as the room goes past what is held, but
nothing is held then. -/
lemma room_of_works (h : w.Works) (size : ℕ) (hsize : ¬ w.held.utf8ByteSize + size < room) :
    ∃ w', (if room < w.held.utf8ByteSize + size then w.flush else (w, true)) = (w', true) ∧
      w.Grown "" w' ∧ (room ≤ size → w'.held = "") := by
  by_cases hover : room < w.held.utf8ByteSize + size
  · obtain ⟨w', hflush, hgrown, hheld⟩ := flush_of_works h
    exact ⟨w', by rw [if_pos hover, hflush], hgrown, fun _ => hheld⟩
  · refine ⟨w, if_neg hover, ⟨h, by simp⟩, fun hlarge => ?_⟩
    have hzero : w.held.utf8ByteSize = 0 := by omega
    exact String.utf8ByteSize_eq_zero_iff.mp hzero

lemma hold_of_works (h : w.Works) (t : String) : ∃ w', w.hold t = (w', true) ∧ w.Grown t w' := by
  unfold hold
  by_cases hfits : w.held.utf8ByteSize + t.utf8ByteSize < room
  · exact ⟨_, if_pos hfits, h, by simp [text, String.append_assoc]⟩
  · obtain ⟨w₁, hroom, hgrown, hheld⟩ := room_of_works h t.utf8ByteSize hfits
    simp only [hfits, if_false, hroom, if_true]
    by_cases hlarge : room ≤ t.utf8ByteSize
    · rw [if_pos hlarge, write_of_works hgrown.works]
      refine ⟨_, rfl, hgrown.works.later rfl (Nat.le_succ _), ?_⟩
      have htext := hgrown.text
      simp only [text, hheld hlarge, String.append_empty] at htext ⊢
      rw [htext]
    · rw [if_neg hlarge]
      refine ⟨_, rfl, hgrown.works, ?_⟩
      have htext := hgrown.text
      simp only [text, String.append_empty] at htext ⊢
      rw [← String.append_assoc, htext]

lemma part_of_works (h : w.Works) (t : String) : ∃ w', w.part t = (w', true) ∧ w.Grown t w' := by
  have hstart : ∃ w₁, (if w.held.toList.getLast? = some '\n' then w.flush else (w, true)) =
      (w₁, true) ∧ w.Grown "" w₁ := by
    split
    · obtain ⟨w₁, hflush, hgrown, -⟩ := flush_of_works h
      exact ⟨w₁, hflush, hgrown⟩
    · exact ⟨w, rfl, h, by simp⟩
  obtain ⟨w₁, hflush, hgrown⟩ := hstart
  obtain ⟨w₂, hhold, hgrown'⟩ := hold_of_works hgrown.works t
  refine ⟨w₂, ?_, by simpa using hgrown.trans hgrown'⟩
  unfold part
  rw [hflush]
  exact hhold

lemma parts_of_works (h : w.Works) (ts : List String) :
    ∃ w', w.parts ts = (w', true) ∧ w.Grown (String.join ts) w' := by
  induction ts generalizing w with
  | nil => exact ⟨w, rfl, h, by simp⟩
  | cons t ts ih =>
    obtain ⟨w₁, hpart, hgrown⟩ := part_of_works h t
    obtain ⟨w₂, hparts, hgrown'⟩ := ih hgrown.works
    refine ⟨w₂, ?_, ?_⟩
    · rw [parts, hpart]
      exact hparts
    · rw [String.join_cons]
      exact hgrown.trans hgrown'

lemma newline_of_works (h : w.Works) :
    ∃ w', w.newline = (w', true) ∧ w.Grown "\n" w' ∧ w'.held = "" := by
  unfold newline
  split
  · rename_i hempty
    have hheld : w.held = "" := String.isEmpty_iff.mp hempty
    rw [write_of_works h]
    exact ⟨_, rfl, ⟨h.later rfl (Nat.le_succ _), by simp [text, hheld]⟩, hheld⟩
  · obtain ⟨w₁, hhold, hgrown⟩ := hold_of_works h "\n"
    obtain ⟨w₂, hflush, hgrown', hheld⟩ := flush_of_works hgrown.works
    refine ⟨w₂, ?_, by simpa using hgrown.trans hgrown', hheld⟩
    rw [hhold]
    exact hflush

/-- **A working sink gets the whole line**. -/
lemma line_of_works (h : w.Works) (ts : List String) :
    ∃ w', w.line ts = (w', true) ∧ w.Grown (String.join ts ++ "\n") w' ∧ w'.held = "" := by
  obtain ⟨w₁, hparts, hgrown⟩ := parts_of_works h ts
  obtain ⟨w₂, hnewline, hgrown', hheld⟩ := newline_of_works hgrown.works
  refine ⟨w₂, ?_, hgrown.trans hgrown', hheld⟩
  rw [line, hparts]
  exact hnewline

end LineWriter

/-! ### The writer of a handler -/

namespace JsonLines

lemma out_emit (s : JsonLines) (resolve : Bool) (names : NameTable) (p : Payload) :
    (s.emit resolve names p).out = (s.out.line (lineJson resolve names p).pieces).1 := by
  unfold emit
  split <;> simp_all

lemma out_noteFilter (s : JsonLines) (config : OutputConfig) (r : AnyRecord) :
    (s.noteFilter config r).out = s.out := by
  unfold noteFilter
  split
  · split <;> rfl
  · rfl

variable {config : OutputConfig} {d : Dispatcher JsonLines}

lemma perform_call (hhandler : d.handler = handler config) (c : Call) :
    d.perform (.call c) = { d with state := respond config d.names c d.state } := by
  rw [Dispatcher.perform, hhandler]
  rfl

lemma out_perform (hhandler : d.handler = handler config) (a : Act) :
    (d.perform a).state.out =
      match a with
      | .call (.handle p) =>
        (d.state.out.line (lineJson config.resolveNames d.names p).pieces).1
      | _ => d.state.out := by
  cases a with
  | count c => rfl
  | bind i name => rfl
  | call c =>
    rw [perform_call hhandler]
    cases c with
    | init | observe r | report message => rfl
    | filter r => exact out_noteFilter d.state config r
    | handle p => exact out_emit d.state _ _ p

end JsonLines

end ProvenanceRelay.Output
