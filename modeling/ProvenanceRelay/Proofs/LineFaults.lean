import Mathlib
import ProvenanceRelay.Proofs.LineWriting

/-!
Lines before a sink that refuses writes.

An operation of the writer asks the sink about its own writes and no others, so a sink may be
chosen line by line. A line fails if all its writes are refused, whatever the writer holds, and
goes through if all are taken; so any lines may fail.
-/

namespace ProvenanceRelay.Output.LineWriter

/-- The same writer before a sink with other answers. -/
def facing (w : LineWriter) (answers : ℕ → Bool) : LineWriter :=
  { w with sink := { w.sink with accepts := answers } }

/-- An operation that asks the sink about its own writes only. -/
structure Local (op : LineWriter → LineWriter × Bool) : Prop where
  writes_le : ∀ w, w.sink.writes ≤ (op w).1.sink.writes
  accepts : ∀ w, (op w).1.sink.accepts = w.sink.accepts
  facing : ∀ w f, (∀ n < (op w).1.sink.writes, f n = w.sink.accepts n) →
    op (w.facing f) = ((op w).1.facing f, (op w).2)

/-- One operation after another that has succeeded. -/
def andThen (op op' : LineWriter → LineWriter × Bool) (w : LineWriter) : LineWriter × Bool :=
  match op w with
  | (w, true) => op' w
  | (w, false) => (w, false)

variable {op op' : LineWriter → LineWriter × Bool}

lemma Local.andThen (h : Local op) (h' : Local op') : Local (andThen op op') where
  writes_le w := by
    unfold LineWriter.andThen
    have hle := h.writes_le w
    split
    · next w₁ hop =>
      rw [hop] at hle
      exact hle.trans (h'.writes_le w₁)
    · next w₁ hop => rwa [hop] at hle
  accepts w := by
    unfold LineWriter.andThen
    have hsame := h.accepts w
    split
    · next w₁ hop =>
      rw [hop] at hsame
      exact (h'.accepts w₁).trans hsame
    · next w₁ hop => rwa [hop] at hsame
  facing w f hf := by
    have hsame := h.accepts w
    have hfacing := h.facing w f
    unfold LineWriter.andThen at hf ⊢
    rcases hop : op w with ⟨w₁, _ | _⟩
    · simp only [hop] at hf hfacing ⊢
      rw [hfacing hf]
    · simp only [hop] at hf hfacing hsame ⊢
      rw [hfacing fun n hn => hf n (hn.trans_le (h'.writes_le w₁))]
      exact h'.facing w₁ f (hsame ▸ hf)

lemma Local.ite {c : String → Prop} [DecidablePred c] (h : Local op) (h' : Local op') :
    Local fun w => if c w.held then op w else op' w where
  writes_le w := by
    split
    · exact h.writes_le w
    · exact h'.writes_le w
  accepts w := by
    split
    · exact h.accepts w
    · exact h'.accepts w
  facing w f hf := by
    by_cases hc : c w.held
    · simp only [LineWriter.facing, hc, if_true] at hf ⊢
      exact h.facing w f hf
    · simp only [LineWriter.facing, hc, if_false] at hf ⊢
      exact h'.facing w f hf

lemma local_skip : Local fun w => (w, true) where
  writes_le _ := le_rfl
  accepts _ := rfl
  facing _ _ _ := rfl

def holding (g : String → String) (w : LineWriter) : LineWriter × Bool :=
  ({ w with held := g w.held }, true)

def writing (g : String → String) (w : LineWriter) : LineWriter × Bool :=
  ({ w with sink := (w.sink.write (g w.held)).1 }, (w.sink.write (g w.held)).2)

lemma local_holding (g : String → String) : Local (holding g) where
  writes_le _ := le_rfl
  accepts _ := rfl
  facing _ _ _ := rfl

lemma local_writing (g : String → String) : Local (writing g) where
  writes_le w := by
    simp only [writing, Sink.write]
    split <;> exact Nat.le_succ _
  accepts w := by
    simp only [writing, Sink.write]
    split <;> rfl
  facing w f hf := by
    have hanswer : f w.sink.writes = w.sink.accepts w.sink.writes := by
      apply hf
      simp only [writing, Sink.write]
      split <;> exact Nat.lt_succ_self _
    simp only [LineWriter.facing, writing, Sink.write, hanswer]
    split <;> rfl

/-! ### The operations -/

lemma flush_eq : flush = fun w => if w.held.isEmpty = true then (w, true) else
    andThen (writing id) (holding fun _ => "") w := by
  funext w
  unfold flush andThen writing holding Sink.write
  split
  · rfl
  · cases w.sink.accepts w.sink.writes <;> rfl

lemma hold_eq (t : String) : (hold · t) = fun w =>
    if w.held.utf8ByteSize + t.utf8ByteSize < room then holding (· ++ t) w else
      andThen (fun w => if room < w.held.utf8ByteSize + t.utf8ByteSize then w.flush else (w, true))
        (fun w => if room ≤ t.utf8ByteSize then writing (fun _ => t) w else holding (· ++ t) w)
        w := by
  funext w
  unfold hold
  by_cases hfits : w.held.utf8ByteSize + t.utf8ByteSize < room
  · simp only [hfits, if_true]
    rfl
  · simp only [hfits, if_false, andThen]
    rcases (if room < w.held.utf8ByteSize + t.utf8ByteSize then w.flush else (w, true)) with
      ⟨w₁, _ | _⟩ <;> rfl

lemma local_flush : Local flush := by
  rw [flush_eq]
  exact local_skip.ite (c := fun held => held.isEmpty = true)
    ((local_writing id).andThen (local_holding fun _ => ""))

lemma local_hold (t : String) : Local (hold · t) := by
  rw [hold_eq]
  refine (local_holding _).ite (c := fun held => held.utf8ByteSize + t.utf8ByteSize < room)
    (Local.andThen ?_ ?_)
  · exact local_flush.ite (c := fun held => room < held.utf8ByteSize + t.utf8ByteSize) local_skip
  · exact (local_writing _).ite (c := fun _ => room ≤ t.utf8ByteSize) (local_holding _)

lemma local_part (t : String) : Local (part · t) :=
  (local_flush.ite (c := fun held => held.toList.getLast? = some '\n') local_skip).andThen
    (local_hold t)

lemma local_parts (ts : List String) : Local (parts · ts) := by
  induction ts with
  | nil => exact local_skip
  | cons t ts ih => exact (local_part t).andThen ih

lemma local_newline : Local newline :=
  (local_writing fun _ => "\n").ite (c := fun held => held.isEmpty = true)
    ((local_hold "\n").andThen local_flush)

lemma local_line (ts : List String) : Local (line · ts) := (local_parts ts).andThen local_newline

/-! ### A sink that refuses every write -/

/-- The sink refuses every write from now on. -/
def Fails (w : LineWriter) : Prop := ∀ n, w.sink.writes ≤ n → w.sink.accepts n = false

variable {w : LineWriter}

lemma Fails.after (h : w.Fails) (hop : Local op) : (op w).1.Fails := by
  intro n hn
  rw [hop.accepts w]
  exact h n ((hop.writes_le w).trans hn)

lemma write_of_fails (h : w.Fails) (t : String) : (w.sink.write t).2 = false := by
  simp [Sink.write, h _ le_rfl]

lemma flush_of_fails (h : w.Fails) (hheld : w.held ≠ "") : w.flush.2 = false := by
  have hwrite := write_of_fails h w.held
  unfold flush
  split
  · next hempty => exact absurd (String.isEmpty_iff.mp hempty) hheld
  · split
    · next sink hsink =>
      rw [hsink] at hwrite
      cases hwrite
    · rfl

lemma held_of_hold_newline {w' : LineWriter} (h : w.hold "\n" = (w', true)) : w'.held ≠ "" := by
  have hsize : ¬ room ≤ "\n".utf8ByteSize := by decide
  have hkept : ∀ held : String, held ++ "\n" ≠ "" := fun held => by simp
  unfold hold at h
  by_cases hfits : w.held.utf8ByteSize + "\n".utf8ByteSize < room
  · simp only [hfits, if_true] at h
    obtain rfl := (Prod.mk.inj h).1
    exact hkept _
  · simp only [hfits, if_false] at h
    rcases hmade : (if room < w.held.utf8ByteSize + "\n".utf8ByteSize then w.flush else (w, true))
      with ⟨w₁, _ | _⟩
    · simp [hmade] at h
    · simp only [hmade, hsize, if_true, if_false] at h
      obtain rfl := (Prod.mk.inj h).1
      exact hkept _

lemma newline_of_fails (h : w.Fails) : w.newline.2 = false := by
  unfold newline
  split
  · exact write_of_fails h "\n"
  · split
    · next w₁ hhold =>
      refine flush_of_fails ?_ (held_of_hold_newline hhold)
      have hafter := h.after (local_hold "\n")
      rwa [hhold] at hafter
    · rfl

lemma line_of_fails (h : w.Fails) (ts : List String) : (w.line ts).2 = false := by
  unfold line
  split
  · next w₁ hparts =>
    refine newline_of_fails ?_
    have hafter := h.after (local_parts ts)
    rwa [hparts] at hafter
  · rfl

/-- **A line ends as the sink answers**, if it gives all writes the same answer. -/
lemma line_of_answer {b : Bool} (h : ∀ n, w.sink.writes ≤ n → w.sink.accepts n = b)
    (ts : List String) : (w.line ts).2 = b := by
  cases b with
  | true =>
    obtain ⟨w', hline, -, -⟩ := line_of_works h ts
    rw [hline]
  | false => exact line_of_fails h ts

end ProvenanceRelay.Output.LineWriter
