import Mathlib
import ProvenanceRelay.Proofs.LineFaults
import ProvenanceRelay.Proofs.LineOutput
import ProvenanceRelay.Proofs.LongLayout

/-!
Lines before a sink that refuses some of the writes.

A line that fails leaves a beginning of itself with the writer, and the next line goes on behind
it. Nothing else gets lost: what is written and what is held are what the lines have left, in their
order. A line that is shorter than the room is not handed on before it is complete, so it leaves
nothing or all of itself; a longer one can be torn.
-/

namespace ProvenanceRelay.Output

namespace LineWriter

variable {w : LineWriter} {t : String} {ts : List String}

/-! ### What a line leaves -/

lemma flush_cases (w : LineWriter) :
    (w.flush.2 = true ∧ w.flush.1.held = "" ∧ w.flush.1.sink.written = w.sink.written ++ w.held) ∨
      (w.flush.2 = false ∧ w.flush.1.held = w.held ∧
        w.flush.1.sink.written = w.sink.written) := by
  unfold flush Sink.write
  by_cases hempty : w.held.isEmpty = true
  · have hheld : w.held = "" := String.isEmpty_iff.mp hempty
    simp [hheld]
  · cases haccepts : w.sink.accepts w.sink.writes <;> simp [hempty]

lemma text_flush (w : LineWriter) : w.flush.1.text = w.text := by
  rcases w.flush_cases with ⟨-, hheld, hwritten⟩ | ⟨-, hheld, hwritten⟩
  · rw [text, text, hheld, hwritten, String.append_empty]
  · rw [text, text, hheld, hwritten]

/-- An operation that takes a text over from the left: what it leaves is a beginning of the text,
and all of it if the operation succeeds. -/
def Takes (t : String) (op : LineWriter → LineWriter × Bool) : Prop :=
  ∀ w, ∃ left, (op w).1.text = w.text ++ left ∧ left.toList <+: t.toList ∧
    ((op w).2 = true → left = t)

lemma Takes.andThen {t' : String} {op op' : LineWriter → LineWriter × Bool} (h : Takes t op)
    (h' : Takes t' op') : Takes (t ++ t') (andThen op op') := by
  intro w
  obtain ⟨left, htext, hprefix, hall⟩ := h w
  unfold LineWriter.andThen
  rcases hop : op w with ⟨w₁, _ | _⟩
  · rw [hop] at htext
    refine ⟨left, htext, ?_, by simp⟩
    rw [String.toList_append]
    exact hprefix.trans (List.prefix_append _ _)
  · rw [hop] at htext hall
    obtain rfl := hall rfl
    obtain ⟨left', htext', hprefix', hall'⟩ := h' w₁
    refine ⟨left ++ left', ?_, ?_, fun hok => by rw [hall' hok]⟩
    · rw [htext', htext, String.append_assoc]
    · rw [String.toList_append, String.toList_append]
      exact (List.prefix_append_right_inj _).mpr hprefix'

lemma takes_skip : Takes "" fun w => (w, true) := fun w => ⟨"", by simp, by simp, fun _ => rfl⟩

lemma takes_flush : Takes "" flush :=
  fun w => ⟨"", by rw [text_flush, String.append_empty], by simp, fun _ => rfl⟩

/-- Room is made without loss, and for text as large as the room nothing stays held. -/
lemma text_of_room {w' : LineWriter} {size : ℕ} {ok : Bool}
    (hsize : ¬ w.held.utf8ByteSize + size < room)
    (h : (if room < w.held.utf8ByteSize + size then w.flush else (w, true)) = (w', ok)) :
    w'.text = w.text ∧ (ok = true → room ≤ size → w'.held = "") := by
  split at h
  · have htext := w.text_flush
    rcases w.flush_cases with ⟨hok, hheld, -⟩ | ⟨hok, -, -⟩
    · rw [h] at htext hheld
      exact ⟨htext, fun _ _ => hheld⟩
    · rw [h] at htext hok
      obtain rfl : ok = false := hok
      exact ⟨htext, nofun⟩
  · obtain ⟨rfl, rfl⟩ := Prod.mk.inj h
    refine ⟨rfl, fun _ hlarge => ?_⟩
    have hzero : w.held.utf8ByteSize = 0 := by omega
    exact String.utf8ByteSize_eq_zero_iff.mp hzero

lemma takes_hold (t : String) : Takes t (hold · t) := by
  intro w
  dsimp only
  unfold hold
  by_cases hfits : w.held.utf8ByteSize + t.utf8ByteSize < room
  · simp only [hfits, if_true]
    exact ⟨t, by simp [text, String.append_assoc], List.prefix_rfl, fun _ => rfl⟩
  simp only [hfits, if_false]
  rcases hroom : (if room < w.held.utf8ByteSize + t.utf8ByteSize then w.flush else (w, true)) with
    ⟨w₁, _ | _⟩
  · obtain ⟨htext, -⟩ := text_of_room hfits hroom
    exact ⟨"", by simp [htext], by simp, by simp⟩
  · obtain ⟨htext, hheld⟩ := text_of_room hfits hroom
    simp only [if_true, ← htext]
    by_cases hlarge : room ≤ t.utf8ByteSize
    · -- the text goes past what is held, but nothing is
      have hempty : w₁.held = "" := hheld rfl hlarge
      simp only [hlarge, if_true, Sink.write]
      cases haccepts : w₁.sink.accepts w₁.sink.writes
      · exact ⟨"", by simp [text], by simp, by simp⟩
      · exact ⟨t, by simp [text, hempty], List.prefix_rfl, fun _ => rfl⟩
    · simp only [hlarge, if_false]
      exact ⟨t, by simp [text, String.append_assoc], List.prefix_rfl, fun _ => rfl⟩

lemma takes_part (t : String) : Takes t (part · t) := by
  have hstart : Takes "" fun w =>
      if w.held.toList.getLast? = some '\n' then w.flush else (w, true) := by
    intro w
    dsimp only
    split
    · exact takes_flush w
    · exact takes_skip w
  have htakes := hstart.andThen (takes_hold t)
  rwa [String.empty_append] at htakes

lemma takes_parts (ts : List String) : Takes (String.join ts) (parts · ts) := by
  induction ts with
  | nil => exact takes_skip
  | cons t ts ih =>
    rw [String.join_cons]
    exact (takes_part t).andThen ih

lemma takes_newline : Takes "\n" newline := by
  intro w
  by_cases hempty : w.held.isEmpty = true
  · have hheld : w.held = "" := String.isEmpty_iff.mp hempty
    simp only [newline, hempty, if_true, Sink.write]
    cases haccepts : w.sink.accepts w.sink.writes
    · exact ⟨"", by simp [text], by simp, by simp⟩
    · exact ⟨"\n", by simp [text, hheld], List.prefix_rfl, fun _ => rfl⟩
  · have htakes := ((takes_hold "\n").andThen takes_flush) w
    rw [String.append_empty] at htakes
    rwa [newline, if_neg hempty]

lemma takes_line (ts : List String) : Takes (String.join ts ++ "\n") (line · ts) :=
  (takes_parts ts).andThen takes_newline

/-! ### Lines that are shorter than the room -/

lemma part_of_fits (hheld : '\n' ∉ w.held.toList)
    (hfits : w.held.utf8ByteSize + t.utf8ByteSize < room) :
    w.part t = ({ w with held := w.held ++ t }, true) := by
  have hlast : w.held.toList.getLast? ≠ some '\n' :=
    fun hlast => hheld (List.mem_of_getLast? hlast)
  simp only [part, hlast, if_false, hold, hfits, if_true]

lemma parts_of_fits (hheld : '\n' ∉ (w.held ++ String.join ts).toList)
    (hfits : (w.held ++ String.join ts).utf8ByteSize < room) :
    w.parts ts = ({ w with held := w.held ++ String.join ts }, true) := by
  induction ts generalizing w with
  | nil => simp [parts]
  | cons t ts ih =>
    rw [String.join_cons, ← String.append_assoc] at hheld hfits ⊢
    have hpart : w.part t = ({ w with held := w.held ++ t }, true) := by
      refine part_of_fits (fun hmem => hheld (by simp [hmem])) ?_
      simp only [String.utf8ByteSize_append] at hfits
      omega
    rw [parts, hpart]
    exact ih hheld hfits

lemma newline_of_fits (hheld : w.held ≠ "") (hfits : w.held.utf8ByteSize < room) :
    w.newline = { w with held := w.held ++ "\n" }.flush := by
  have hempty : ¬ w.held.isEmpty = true := fun h => hheld (String.isEmpty_iff.mp h)
  have hsize : "\n".utf8ByteSize = 1 := by decide
  have hhold : w.hold "\n" = ({ w with held := w.held ++ "\n" }, true) := by
    unfold hold
    by_cases hlast : w.held.utf8ByteSize + "\n".utf8ByteSize < room
    · simp only [hlast, if_true]
    · have hover : ¬ room < w.held.utf8ByteSize + "\n".utf8ByteSize := by omega
      have hlarge : ¬ room ≤ "\n".utf8ByteSize := by decide
      simp only [hlast, hover, hlarge, if_true, if_false]
  rw [newline, if_neg hempty, hhold]

lemma line_of_fits (hheld : w.held = "") (hne : String.join ts ≠ "")
    (hline : '\n' ∉ (String.join ts).toList) (hfits : (String.join ts).utf8ByteSize < room) :
    w.line ts = { w with held := String.join ts ++ "\n" }.flush := by
  have hparts : w.parts ts = ({ w with held := String.join ts }, true) := by
    rw [parts_of_fits] <;> simp only [hheld, String.empty_append] <;> assumption
  rw [line, hparts]
  exact newline_of_fits hne hfits

/-- A complete line that is held is handed on first. -/
lemma line_of_complete (hheld : w.held.toList.getLast? = some '\n') :
    w.line (t :: ts) = andThen flush (line · (t :: ts)) w := by
  unfold andThen line
  rcases hflush : w.flush with ⟨w₁, _ | _⟩
  · simp only [parts, part, hheld, if_true, hflush]
  · have hempty : w₁.held = "" := by
      rcases w.flush_cases with ⟨-, hempty, -⟩ | ⟨hok, -, -⟩
      · rwa [hflush] at hempty
      · rw [hflush] at hok
        cases hok
    simp only [parts, part, hheld, hempty, if_true, hflush, String.toList_empty, List.getLast?_nil,
      reduceCtorEq, if_false]

/-- What becomes of a line that is shorter than the room, while nothing or a complete line is held:
it is given up, it stays held, or it is handed on. -/
inductive ShortLine (w : LineWriter) (l : String) : LineWriter × Bool → Prop where
  | givenUp {w' : LineWriter} (held : w'.held = w.held)
      (written : w'.sink.written = w.sink.written) :
      ShortLine w l (w', false)
  | kept {w' : LineWriter} (held : w'.held = l)
    (written : w'.sink.written = w.sink.written ++ w.held) : ShortLine w l (w', false)
  | handedOn {w' : LineWriter} (held : w'.held = "")
    (written : w'.sink.written = w.sink.written ++ w.held ++ l) : ShortLine w l (w', true)

lemma shortLine (hheld : w.held = "" ∨ w.held.toList.getLast? = some '\n')
    (hne : String.join ts ≠ "") (hline : '\n' ∉ (String.join ts).toList)
    (hfits : (String.join ts).utf8ByteSize < room) :
    ShortLine w (String.join ts ++ "\n") (w.line ts) := by
  -- the line of a writer that holds nothing is the flush of the whole line
  have hempty {w₁ : LineWriter} (hheld₁ : w₁.held = "")
      (hwritten₁ : w₁.sink.written = w.sink.written ++ w.held) :
      ShortLine w (String.join ts ++ "\n") (w₁.line ts) := by
    rw [line_of_fits hheld₁ hne hline hfits, ← Prod.eta (flush _)]
    rcases flush_cases { w₁ with held := String.join ts ++ "\n" } with
      ⟨hok, hheld', hwritten⟩ | ⟨hok, hheld', hwritten⟩ <;> rw [hok]
    · exact .handedOn hheld' (by rw [hwritten, hwritten₁])
    · exact .kept hheld' (by rw [hwritten, hwritten₁])
  rcases hheld with hheld | hheld
  · exact hempty hheld (by rw [hheld, String.append_empty])
  cases ts with
  | nil => exact absurd String.join_nil hne
  | cons t ts =>
    rw [line_of_complete hheld, andThen]
    rcases hflush : w.flush with ⟨w₁, _ | _⟩ <;> rcases w.flush_cases with h | h <;>
      rw [hflush] at h <;> obtain ⟨hok, hheld₁, hwritten₁⟩ := h
    · cases hok
    · exact .givenUp hheld₁ hwritten₁
    · exact hempty hheld₁ hwritten₁
    · cases hok

/-! ### Lines that are longer than the room -/

/-- The writer once the sink has refused a write. -/
def refused (w : LineWriter) : LineWriter :=
  { w with sink := { w.sink with writes := w.sink.writes + 1 } }

lemma write_of_refuses (hrefuses : w.sink.accepts w.sink.writes = false) (t : String) :
    w.sink.write t = (w.refused.sink, false) := by
  simp [Sink.write, refused, hrefuses]

lemma flush_of_refuses (hrefuses : w.sink.accepts w.sink.writes = false) (hheld : w.held ≠ "") :
    w.flush = (w.refused, false) := by
  have hempty : ¬ w.held.isEmpty = true := fun h => hheld (String.isEmpty_iff.mp h)
  rw [flush, if_neg hempty, write_of_refuses hrefuses]
  rfl

/-- A text is held if there is room for it. Otherwise something has to be handed on first, and
that is refused. -/
lemma hold_of_refuses (hrefuses : w.sink.accepts w.sink.writes = false) (t : String) :
    (w.hold t = ({ w with held := w.held ++ t }, true) ∧
      (w.held ++ t).utf8ByteSize ≤ room) ∨ w.hold t = (w.refused, false) := by
  rw [String.utf8ByteSize_append]
  by_cases hfits : w.held.utf8ByteSize + t.utf8ByteSize < room
  · exact .inl ⟨by simp only [hold, hfits, if_true], by omega⟩
  have hlarge (h : room ≤ t.utf8ByteSize) (hheld : room < w.held.utf8ByteSize + t.utf8ByteSize →
      w.held = "") : w.hold t = (w.refused, false) := by
    have hskip : (if room < w.held.utf8ByteSize + t.utf8ByteSize then w.flush else (w, true)) =
        (w, true) := by
      split
      · next hover => rw [flush, hheld hover]; rfl
      · rfl
    simp only [hold, hfits, if_false, hskip, if_true, h, write_of_refuses hrefuses]
    rfl
  by_cases hover : room < w.held.utf8ByteSize + t.utf8ByteSize
  · right
    rcases eq_or_ne w.held "" with hheld | hheld
    · refine hlarge ?_ fun _ => hheld
      rw [hheld, String.utf8ByteSize_empty] at hover
      omega
    · simp only [hold, hfits, hover, if_true, if_false, flush_of_refuses hrefuses hheld,
        Bool.false_eq_true]
  · by_cases hsize : room ≤ t.utf8ByteSize
    · exact .inr (hlarge hsize fun h => absurd h hover)
    · exact .inl ⟨by simp only [hold, hfits, hover, hsize, if_true, if_false], by omega⟩

/-- A line that has no room is given up with what was held when its first write is refused. -/
lemma parts_of_refuses (hrefuses : w.sink.accepts w.sink.writes = false)
    (hroom : w.held.utf8ByteSize ≤ room) (hheld : '\n' ∉ (w.held ++ String.join ts).toList)
    (hover : room < (w.held ++ String.join ts).utf8ByteSize) :
    ∃ left, left.toList <+: (String.join ts).toList ∧
      w.parts ts = ({ w.refused with held := w.held ++ left }, false) := by
  induction ts generalizing w with
  | nil =>
    rw [String.join_nil, String.append_empty] at hover
    omega
  | cons t ts ih =>
    rw [String.join_cons, ← String.append_assoc] at hheld hover
    have hlast : w.held.toList.getLast? ≠ some '\n' :=
      fun hlast => hheld (by simp [List.mem_of_getLast? hlast])
    have hpart : w.part t = w.hold t := by simp only [part, hlast, if_false]
    rw [String.join_cons, String.toList_append, parts, hpart]
    rcases hold_of_refuses hrefuses t with ⟨hhold, hroom'⟩ | hhold
    · obtain ⟨left, hleft, hparts⟩ := ih (w := { w with held := w.held ++ t }) hrefuses hroom' hheld
        hover
      refine ⟨t ++ left, ?_, ?_⟩
      · rw [String.toList_append]
        exact (List.prefix_append_right_inj _).mpr hleft
      · rw [hhold, ← String.append_assoc]
        exact hparts
    · refine ⟨"", by simp, ?_⟩
      rw [hhold, String.append_empty]
      rfl

end LineWriter

namespace JsonLines

open LineWriter (room)

variable {config : OutputConfig} {xs : List Delivery}

lemma writeLines_append_singleton (w : LineWriter) (ls : List Json) (l : Json) :
    writeLines w (ls ++ [l]) = ((writeLines w ls).line l.pieces).1 := by
  simp [writeLines]

lemma exists_left (w : LineWriter) (ls : List Json) :
    ∃ left, List.Forall₂ (fun l t => t.toList <+: (l.compact ++ "\n").toList) ls left ∧
      (writeLines w ls).text = w.text ++ String.join left := by
  induction ls generalizing w with
  | nil => exact ⟨[], .nil, by simp [writeLines]⟩
  | cons l ls ih =>
    obtain ⟨t, htext, hprefix, -⟩ := LineWriter.takes_line l.pieces w
    obtain ⟨left, hleft, hmore⟩ := ih (w.line l.pieces).1
    refine ⟨t :: left, .cons hprefix hleft, ?_⟩
    rw [writeLines, List.foldl_cons, ← writeLines, hmore, htext, String.join_cons,
      String.append_assoc]

lemma getLast?_linesText {ls : List Json} (h : ls ≠ []) :
    (linesText ls).toList.getLast? = some '\n' := by
  obtain ⟨init, l, rfl⟩ := List.eq_nil_or_concat ls |>.resolve_left h
  simp [linesText]

/-- Lines that are shorter than the room are written whole, held whole or given up. -/
lemma writeLines_of_short {w : LineWriter} (hheld : w.held = "") {ls : List Json}
    (hne : ∀ l ∈ ls, l.compact ≠ "") (hfits : ∀ l ∈ ls, l.compact.utf8ByteSize < room) :
    ∃ kept last, (kept ++ last).Sublist ls ∧ last.length ≤ 1 ∧
      (writeLines w ls).sink.written = w.sink.written ++ linesText kept ∧
      (writeLines w ls).held = linesText last := by
  induction ls using List.reverseRecOn with
  | nil => exact ⟨[], [], by simp, by simp, by simp [writeLines, linesText], hheld⟩
  | append_singleton ls l ih =>
    rw [List.forall_mem_append] at hne hfits
    obtain ⟨kept, last, hsub, hlast, hwritten, hheld'⟩ := ih hne.1 hfits.1
    -- between two lines, nothing or a complete line is held
    have hcomplete : (writeLines w ls).held = "" ∨
        (writeLines w ls).held.toList.getLast? = some '\n' := by
      rw [hheld']
      rcases eq_or_ne last [] with rfl | hlast'
      · exact .inl rfl
      · exact .inr (getLast?_linesText hlast')
    have hline : linesText [l] = l.compact ++ "\n" := by simp [linesText]
    have hshort := LineWriter.shortLine hcomplete (hne.2 l (by simp)) l.newline_notMem_compact
      (hfits.2 l (by simp))
    rw [← Json.compact, ← hline] at hshort
    rw [writeLines_append_singleton]
    generalize (writeLines w ls).line l.pieces = r at hshort
    cases hshort with
    | givenUp held written =>
      exact ⟨kept, last, hsub.trans (List.sublist_append_left _ _), hlast, written.trans hwritten,
        held.trans hheld'⟩
    | kept held written =>
      refine ⟨kept ++ last, [l], hsub.append_right [l], by simp, ?_, held⟩
      rw [written, hwritten, hheld', linesText_append, String.append_assoc]
    | handedOn held written =>
      refine ⟨kept ++ last ++ [l], [], by simpa using hsub.append_right [l], by simp, ?_, held⟩
      rw [written, hwritten, hheld', linesText_append, linesText_append, String.append_assoc,
        String.append_assoc, String.append_assoc]

lemma compact_json_ne_empty (l : Line) : l.json.compact ≠ "" := by
  simp [Line.json, Json.compact, Json.pieces]

/-- **What a failing sink has is what each line has left**: whatever writes the sink refuses, what
is written and what is still held are a beginning of each line, in the order of the lines. If all
lines are shorter than the room, then the sink has whole lines only, and at most one more line is
held, which is whole too. A whole line is read as what it has to tell. -/
theorem lines_leave_beginnings (config : OutputConfig) (sink : Sink)
    (hquery : config.queryMode = false) (xs : List Delivery) :
    let d : Dispatcher JsonLines := { handler := handler config, state := new sink }
    let out := (d.deliverAll xs).state.out
    ∃ ls, Lines config xs ls ∧
      let lines := ls.map Line.json
      (∀ l ∈ lines, '\n' ∉ l.compact.toList) ∧
      (lines.map fun l => Reading.ofText? l.compact) = (ls.map fun l => some (.of l)) ∧
      (∃ left, List.Forall₂ (fun l t => t.toList <+: (l.compact ++ "\n").toList) lines left ∧
        out.sink.written ++ out.held = sink.written ++ String.join left) ∧
      ((∀ l ∈ lines, l.compact.utf8ByteSize < room) →
        ∃ kept last, (kept ++ last).Sublist lines ∧ last.length ≤ 1 ∧
          out.sink.written = sink.written ++ linesText kept ∧ out.held = linesText last) := by
  intro d out
  have hstart : Told config [] [] d := ⟨rfl, knows_empty, .nil⟩
  obtain ⟨ls, htold, hout⟩ := hstart.deliverAll hquery xs
  rw [List.nil_append] at htold
  refine ⟨ls, htold.lines, fun l _ => l.newline_notMem_compact, ?_, ?_, fun hfits => ?_⟩
  · rw [List.map_map]
    exact List.map_congr_left fun l _ => Reading.ofText?_compact l
  · -- each line has left a beginning of itself
    obtain ⟨left, hleft, htext⟩ := exists_left d.state.out (ls.map Line.json)
    refine ⟨left, hleft, ?_⟩
    rw [← hout] at htext
    exact htext.trans (by simp [LineWriter.text, d, new])
  · -- all lines are shorter than the room
    have hne : ∀ l ∈ ls.map Line.json, l.compact ≠ "" := by
      simpa using fun l _ => compact_json_ne_empty l
    have hshort := writeLines_of_short (w := d.state.out) rfl hne hfits
    rwa [← hout] at hshort

/-- An instance with a sink that refuses the first line. -/
theorem lines_leave_beginnings_etc :
    let sink : Sink := { accepts := fun n => n ≠ 0 }
    let out := (Dispatcher.deliverAll { handler := handler {}, state := new sink }
      etcDeliveries).state.out
    ({} : OutputConfig).queryMode = false ∧
      ∃ ls, Lines {} etcDeliveries ls ∧
        let lines := ls.map Line.json
        (∀ l ∈ lines, '\n' ∉ l.compact.toList) ∧
        (lines.map fun l => Reading.ofText? l.compact) = (ls.map fun l => some (.of l)) ∧
        (∃ left, List.Forall₂ (fun l t => t.toList <+: (l.compact ++ "\n").toList) lines left ∧
          out.sink.written ++ out.held = "" ++ String.join left) ∧
        ((∀ l ∈ lines, l.compact.utf8ByteSize < room) →
          ∃ kept last, (kept ++ last).Sublist lines ∧ last.length ≤ 1 ∧
            out.sink.written = "" ++ linesText kept ∧ out.held = linesText last) :=
  ⟨rfl, lines_leave_beginnings {} { accepts := fun n => n ≠ 0 } rfl etcDeliveries⟩

/-! ### A torn line -/

/-- Behind an object that is longer than the room and whose first write is refused, the next line
goes on where it was given up. -/
lemma exists_torn {w : LineWriter} {l : Json} {ts : List String} (hheld : w.held = "")
    (hrefuses : w.sink.accepts w.sink.writes = false) (hworks : w.refused.Works)
    (hpieces : l.pieces = "\x7b" :: ts) (hover : room < l.compact.utf8ByteSize) (next : Json) :
    ∃ left, left ≠ "" ∧ left.toList <+: l.compact.toList ∧
      (writeLines w [l, next]).sink.written =
        w.sink.written ++ (left ++ next.compact ++ "\n") := by
  have hcompact : l.compact = "\x7b" ++ String.join ts := by
    rw [Json.compact, hpieces, String.join_cons]
  have hplain := l.newline_notMem_compact
  rw [hcompact] at hplain hover
  have hpart : w.part "\x7b" = ({ w with held := "\x7b" }, true) := by
    have hfits : w.held.utf8ByteSize + "\x7b".utf8ByteSize < room := by
      rw [hheld]
      decide
    rw [LineWriter.part_of_fits (by simp [hheld]) hfits, hheld, String.empty_append]
  -- of the rest a beginning stays held when its write is refused
  obtain ⟨left, hleft, hparts⟩ := LineWriter.parts_of_refuses (w := { w with held := "\x7b" })
    hrefuses (by decide : "\x7b".utf8ByteSize ≤ room) hplain hover
  have hline : w.line l.pieces = ({ w.refused with held := "\x7b" ++ left }, false) := by
    rw [LineWriter.line, hpieces, LineWriter.parts, hpart]
    simp only [hparts]
    rfl
  obtain ⟨w', hnext, hgrown, hheld'⟩ :=
    LineWriter.line_of_works (w := { w.refused with held := "\x7b" ++ left }) hworks next.pieces
  refine ⟨"\x7b" ++ left, by simp, ?_, ?_⟩
  · rw [hcompact, String.toList_append, String.toList_append]
    exact (List.prefix_append_right_inj _).mpr hleft
  · have htext := hgrown.text
    rw [LineWriter.text, hheld', String.append_empty] at htext
    simp only [writeLines, List.foldl_cons, List.foldl_nil, hline, hnext, htext]
    simp [LineWriter.text, LineWriter.refused, Json.compact, String.append_assoc]

def letters (n : ℕ) : String := String.ofList (List.replicate n 'a')

def letterPath (n : ℕ) : Bytes :=
  Bytes.toLE 8 LongKind.path.tag.toNat ++ List.replicate 56 0 ++ Bytes.toLE 2 n ++
    List.replicate n 97 ++ List.replicate (4286 - n) 0

lemma encode_letters (n : ℕ) : Text.Utf8.encode (letters n) = List.replicate n 97 := by
  have hletter : String.utf8EncodeChar 'a' = [97] := by decide
  rw [Text.Utf8.encode, letters, String.toList_ofList, List.flatMap_replicate, hletter,
    List.flatten_replicate_singleton]

lemma accepted_letterPath {n : ℕ} (hn : n ≤ 4096) :
    ∃ r h, Accepted {} (.slice .long (letterPath n)) r (.long (.path ⟨h, letters n⟩)) := by
  have hsize : (letterPath n).length = Shape.long.size := by
    simp only [letterPath, List.length_append, Bytes.length_toLE, List.length_replicate, Shape.size]
    omega
  let r : Record .long := ⟨letterPath n, hsize⟩
  have hstores : LongPayload.Stores (.path ⟨r.header, letters n⟩)
      [⟨64, Bytes.toLE 2 n⟩, ⟨66, List.replicate n 97⟩] := by
    have hroom : (Text.Utf8.encode (letters n)).length ≤ 4096 := by
      rwa [encode_letters, List.length_replicate]
    simpa [encode_letters] using LongPayload.Stores.path (e := ⟨r.header, letters n⟩) hroom
  have hheld : ∀ f ∈ [⟨64, Bytes.toLE 2 n⟩, ⟨66, List.replicate n 97⟩], r.bytes.Holds f := by
    have hlength : r.bytes.Holds ⟨64, Bytes.toLE 2 n⟩ :=
      (Bytes.holds_append (by simp)).append.append
    have htext : r.bytes.Holds ⟨66, List.replicate n 97⟩ := (Bytes.holds_append (by simp)).append
    exact List.forall_mem_cons.mpr ⟨hlength, List.forall_mem_singleton.mpr htext⟩
  have htag : Record.classifyLong r.tag = .ok .path := by
    have hbytes : r.bytes.Holds ⟨0, (Datum.u64 LongKind.path.tag).bytes⟩ :=
      (Bytes.holds_self _).append.append.append.append
    rw [Record.classifyLong_eq_ok_iff]
    exact (Chunk.u64_sub hbytes).symm
  have hdecode : r.decodeLong = .ok (.path ⟨r.header, letters n⟩) := by
    rw [Record.decodeLong, htag]
    exact hstores.longPayload_eq rfl hheld
  refine ⟨.long r, r.header, .mk hsize ?_ (by simp) ?_⟩
  · simp [AnyRecord.parse, Record.parse, hsize, Functor.map, Except.map, r]
  · rw [AnyRecord.decode, hdecode]
    rfl

lemma utf8ByteSize_letters (n : ℕ) : (letters n).utf8ByteSize = n := by
  rw [letters, String.utf8ByteSize_ofList]
  induction n with
  | zero => rfl
  | succ n ih => rw [List.replicate_succ, String.utf8Len_cons, ih]; rfl

lemma utf8ByteSize_le_of_mem {t : String} {ts : List String} (h : t ∈ ts) :
    t.utf8ByteSize ≤ (String.join ts).utf8ByteSize := by
  induction ts with
  | nil => cases h
  | cons u ts ih =>
    rw [String.join_cons, String.utf8ByteSize_append]
    rcases List.mem_cons.mp h with rfl | h
    · omega
    · have := ih h
      omega

lemma runs_letters {n : ℕ} (hn : 0 < n) : Json.runs (letters n).toList = [letters n] := by
  obtain ⟨n, rfl⟩ := Nat.exists_eq_succ_of_ne_zero hn.ne'
  have hletter : Json.escape? 'a' = none := by decide
  have hplain : Json.isPlain 'a' = true := by decide
  rw [letters, String.toList_ofList, List.replicate_succ, Json.runs, hletter]
  simp [hplain, Json.runs]

lemma le_size_letterLine {n : ℕ} (hn : 0 < n) (h : Header) (names : NameTable) :
    n ≤ (lineJson true names (.long (.path ⟨h, letters n⟩))).compact.utf8ByteSize := by
  have hmem : letters n ∈ (lineJson true names (.long (.path ⟨h, letters n⟩))).pieces := by
    have hline : lineJson true names (.long (.path ⟨h, letters n⟩)) = .object [
        ("kind", .string Kind.path.name),
        ("record", .object [("header", h.json), ("name", .string (letters n))])] := rfl
    simp [hline, Json.pieces, Json.fieldPieces, Json.moreFieldPieces, Json.stringPieces,
      runs_letters hn]
  calc n = (letters n).utf8ByteSize := (utf8ByteSize_letters n).symm
    _ ≤ _ := utf8ByteSize_le_of_mem hmem

/-- Two path records with a name that the room cannot hold, before a sink that refuses the first
write only: the beginning of the first line stays held, and the sink gets it in front of the
second, on one line that is neither. -/
lemma exists_torn_of_letterPath {n : ℕ} (hn : n ≤ 4096) (hover : room < n) :
    let xs : List Delivery := [.slice .long (letterPath n), .slice .long (letterPath n)]
    let d : Dispatcher JsonLines :=
      { handler := handler {}, state := new { accepts := fun n => n ≠ 0 } }
    ∃ ls torn, Lines {} xs ls ∧ '\n' ∉ torn.toList ∧
      (d.deliverAll xs).state.out.sink.written = torn ++ "\n" ∧
      ∀ l ∈ ls, l.json.compact ≠ torn := by
  intro xs d
  obtain ⟨r, h, haccepted⟩ := accepted_letterPath hn
  set l : Line := lineOf true .empty (.long (.path ⟨h, letters n⟩))
  -- both records get the same line
  have hdeliver {xs : List Delivery} {ls : List Line} {d : Dispatcher JsonLines}
      (htold : Told {} xs ls d) :
      Told {} (xs ++ [.slice .long (letterPath n)]) (ls ++ [l])
          (d.deliver (.slice .long (letterPath n))) ∧
        (d.deliver (.slice .long (letterPath n))).state.out =
          (d.state.out.line l.json.pieces).1 := by
    rcases htold.deliver rfl (.slice .long (letterPath n)) with ⟨hrefused, -⟩ | ⟨r', p', h', hline⟩
    · exact absurd haccepted (hrefused r _)
    · obtain ⟨-, rfl⟩ := haccepted.unique h'
      exact hline
  have hstart : Told {} [] [] d := ⟨rfl, knows_empty, .nil⟩
  obtain ⟨hfirst, hout⟩ := hdeliver hstart
  obtain ⟨hboth, hout'⟩ := hdeliver hfirst
  have hsize : room < l.json.compact.utf8ByteSize := by
    rw [← lineJson_eq]
    exact hover.trans_le (le_size_letterLine (by omega) h .empty)
  have hworks : d.state.out.refused.Works := by
    intro k hk
    exact decide_eq_true (Nat.ne_of_gt hk)
  obtain ⟨left, hne, hleft, hwritten⟩ :=
    exists_torn (w := d.state.out) rfl rfl hworks rfl hsize l.json
  refine ⟨[l, l], left ++ l.json.compact, hboth.lines, ?_, ?_, ?_⟩
  · -- neither line has a newline
    rw [String.toList_append, List.mem_append]
    rintro (hmem | hmem)
    · exact l.json.newline_notMem_compact (hleft.subset hmem)
    · exact l.json.newline_notMem_compact hmem
  · have hall : (d.deliverAll xs).state.out = writeLines d.state.out [l.json, l.json] := by
      rw [writeLines, List.foldl_cons, ← hout]
      exact hout'
    rw [hall, hwritten]
    exact String.empty_append
  · -- the torn line is longer than each of the two
    intro m hm
    obtain rfl : m = l := by simpa using hm
    intro heq
    have hlength := congrArg String.utf8ByteSize heq
    have hzero : left.utf8ByteSize = 0 := by
      rw [String.utf8ByteSize_append] at hlength
      omega
    exact hne (String.utf8ByteSize_eq_zero_iff.mp hzero)

/-- **A line that is longer than the room can be torn.** -/
theorem exists_torn_line :
    let xs : List Delivery := [.slice .long (letterPath 1100), .slice .long (letterPath 1100)]
    let d : Dispatcher JsonLines :=
      { handler := handler {}, state := new { accepts := fun n => n ≠ 0 } }
    ∃ ls torn, Lines {} xs ls ∧ '\n' ∉ torn.toList ∧
      (d.deliverAll xs).state.out.sink.written = torn ++ "\n" ∧ ∀ l ∈ ls, l.json.compact ≠ torn :=
  exists_torn_of_letterPath (by decide) (by decide)

end JsonLines

end ProvenanceRelay.Output
