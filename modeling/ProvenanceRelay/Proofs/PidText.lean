import Mathlib
import ProvenanceRelay.PidFile

/-!
The text of a process number.

A numeral is an optional plus sign and digits. With white space around it it is what a PID file may
hold: the number that it denotes is read if it fits in 32 bits, and the text that is written for a
number denotes that number.
-/

namespace ProvenanceRelay

namespace Text

/-! ### Numerals -/

namespace Numeral

variable {max n m : ℕ} {c : Char} {cs : List Char}

lemma digit?_eq_some_iff {d : ℕ} : digit? c = some d ↔ c.isDigit ∧ c.toNat - '0'.toNat = d := by
  have hdigit : ('0' ≤ c ∧ c ≤ '9') ↔ c.isDigit := by simp [Char.isDigit, Char.le_def]
  rw [digit?]
  split
  · next h => simp [hdigit.mp h]
  · next h => simp [mt hdigit.mpr h]

lemma le_ofDigitChars (cs : List Char) (n : ℕ) : n ≤ Nat.ofDigitChars 10 cs n := by
  induction cs generalizing n with
  | nil => simp
  | cons c cs ih =>
    rw [Nat.ofDigitChars_cons]
    have := ih (10 * n + (c.toNat - '0'.toNat))
    omega

lemma readDigits_eq_ok_iff (hn : n ≤ max) :
    readDigits max n cs = .ok m ↔
      (∀ c ∈ cs, c.isDigit) ∧ Nat.ofDigitChars 10 cs n = m ∧ m ≤ max := by
  induction cs generalizing n with
  | nil =>
    simp only [readDigits, Except.ok.injEq, Nat.ofDigitChars_nil, List.not_mem_nil, false_implies,
      implies_true, true_and]
    exact ⟨fun h => ⟨h, h ▸ hn⟩, And.left⟩
  | cons c cs ih =>
    rw [readDigits, Nat.ofDigitChars_cons, List.forall_mem_cons]
    cases hdigit : digit? c with
    | none =>
      have hc : ¬ c.isDigit := fun hc => by simp [digit?_eq_some_iff.mpr ⟨hc, rfl⟩] at hdigit
      simp [hc]
    | some d =>
      obtain ⟨hc, rfl⟩ := digit?_eq_some_iff.mp hdigit
      rw [Nat.mul_comm 10 n]
      dsimp only
      split
      · next hfits => rw [ih hfits, and_iff_right hc]
      · next hlarge =>
        -- what follows makes the number no smaller
        have hle := le_ofDigitChars cs (n * 10 + (c.toNat - '0'.toNat))
        refine ⟨nofun, ?_⟩
        rintro ⟨-, hm, hmax⟩
        omega

/-- The characters are a numeral of the number: an optional plus sign and digits, one at least. -/
def Denotes (cs : List Char) (n : ℕ) : Prop :=
  ∃ ds, (cs = ds ∨ cs = '+' :: ds) ∧ ds ≠ [] ∧ (∀ c ∈ ds, c.isDigit) ∧
    Nat.ofDigitChars 10 ds 0 = n

lemma read_eq_ok_iff : read max cs = .ok n ↔ Denotes cs n ∧ n ≤ max := by
  have hplus : ¬ '+'.isDigit := by decide
  unfold read Denotes
  split
  · simp
  · simp
  · next cs hne =>
    rw [readDigits_eq_ok_iff (Nat.zero_le max)]
    have hcs : cs ≠ [] := fun h => hne (by rw [h])
    constructor
    · rintro ⟨hdigits, hn, hmax⟩
      exact ⟨⟨cs, .inr rfl, hcs, hdigits, hn⟩, hmax⟩
    · rintro ⟨⟨ds, rfl | heq, -, hdigits, hn⟩, hmax⟩
      · exact absurd (hdigits '+' List.mem_cons_self) hplus
      · obtain rfl := (List.cons.inj heq).2
        exact ⟨hdigits, hn, hmax⟩
  · next hnil _ hsign =>
    rw [readDigits_eq_ok_iff (Nat.zero_le max)]
    constructor
    · rintro ⟨hdigits, hn, hmax⟩
      exact ⟨⟨cs, .inl rfl, hnil, hdigits, hn⟩, hmax⟩
    · rintro ⟨⟨ds, rfl | heq, -, hdigits, hn⟩, hmax⟩
      · exact ⟨hdigits, hn, hmax⟩
      · exact absurd heq (hsign ds)

lemma denotes_decimal (n : ℕ) : Denotes (decimal n).toList n :=
  ⟨Nat.toDigits 10 n, .inl (String.toList_ofList ..), Nat.toDigits_ne_nil,
    fun _ hc => Nat.isDigit_of_mem_toDigits (by omega) (by omega) hc, Nat.ofDigitChars_ten_toDigits⟩

lemma decimal_injective : Function.Injective decimal := by
  intro n m h
  have hvalue := congrArg (fun s : String => Nat.ofDigitChars 10 s.toList 0) h
  simpa [decimal, Nat.ofDigitChars_ten_toDigits] using hvalue

end Numeral

/-! ### White space -/

lemma exists_trim (cs : List Char) :
    ∃ before after, cs = before ++ trim cs ++ after ∧ ∀ c ∈ before ++ after, isBlank c := by
  refine ⟨cs.takeWhile isBlank, (cs.dropWhile isBlank).rtakeWhile isBlank, ?_, ?_⟩
  · rw [List.append_assoc]
    have hback : trim cs ++ (cs.dropWhile isBlank).rtakeWhile isBlank = cs.dropWhile isBlank :=
      List.rdropWhile_append_rtakeWhile
    rw [hback, List.takeWhile_append_dropWhile]
  · intro c hc
    rcases List.mem_append.mp hc with hc | hc
    · exact List.mem_takeWhile_imp hc
    · exact List.mem_rtakeWhile_imp hc

/-- White space around what has none at its ends is trimmed off, and nothing else. -/
lemma trim_append {before cs after : List Char} (hblank : ∀ c ∈ before ++ after, isBlank c)
    (hcs : ∀ c ∈ cs, ¬ isBlank c) : trim (before ++ cs ++ after) = cs := by
  rw [List.forall_mem_append] at hblank
  have hall {l : List Char} (h : ∀ c ∈ l, ¬ isBlank c) : l.dropWhile isBlank = l := by
    cases l with
    | nil => rfl
    | cons c l => exact List.dropWhile_cons_of_neg (h c List.mem_cons_self)
  have hfront : (before ++ cs ++ after).dropWhile isBlank = (cs ++ after).dropWhile isBlank := by
    rw [List.append_assoc, List.dropWhile_append_of_pos hblank.1]
  cases cs with
  | nil =>
    have hafter : after.dropWhile isBlank = [] := List.dropWhile_eq_nil_iff.mpr hblank.2
    rw [trim, hfront, List.nil_append, hafter]
    rfl
  | cons c cs =>
    have hcons : (c :: cs ++ after).dropWhile isBlank = c :: cs ++ after :=
      List.dropWhile_cons_of_neg (hcs c List.mem_cons_self)
    rw [trim, hfront, hcons, List.reverse_append,
      List.dropWhile_append_of_pos (by simpa using hblank.2),
      hall (fun d hd => hcs d (List.mem_reverse.mp hd)), List.reverse_reverse]

lemma Numeral.Denotes.not_isBlank {cs : List Char} {n : ℕ} (h : Numeral.Denotes cs n) :
    ∀ c ∈ cs, ¬ isBlank c := by
  have hdigit {c : Char} (hc : c.isDigit) : ¬ isBlank c := by
    have hrange : 48 ≤ c.toNat ∧ c.toNat ≤ 57 := Char.isDigit_iff_toNat.mp hc
    simp only [isBlank, Bool.or_eq_true, Bool.and_eq_true, decide_eq_true_eq]
    omega
  obtain ⟨ds, rfl | rfl, -, hdigits, -⟩ := h
  · exact fun c hc => hdigit (hdigits c hc)
  · exact List.forall_mem_cons.mpr ⟨by decide, fun c hc => hdigit (hdigits c hc)⟩

end Text

/-! ### PID files -/

namespace PidFile

open Text

/-- The text is a numeral of the number with white space around it. -/
def Denotes (s : String) (n : ℕ) : Prop :=
  ∃ before numeral after, s.toList = before ++ numeral ++ after ∧
    (∀ c ∈ before ++ after, isBlank c) ∧ Numeral.Denotes numeral n

/-- The numeral is what is left of the text when it is trimmed. -/
lemma denotes_iff {s : String} {n : ℕ} : Denotes s n ↔ Numeral.Denotes (trim s.toList) n := by
  constructor
  · rintro ⟨before, numeral, after, hs, hblank, hn⟩
    rwa [hs, trim_append hblank hn.not_isBlank]
  · intro hn
    obtain ⟨before, after, hs, hblank⟩ := exists_trim s.toList
    exact ⟨before, trim s.toList, after, hs, hblank, hn⟩

/-- A text is read as the number that it denotes. -/
theorem parse_eq_ok_iff {s : String} {pid : UInt32} : parse s = .ok pid ↔ Denotes s pid.toNat := by
  have hmax : pid.toNat ≤ maxPid := Nat.le_pred_of_lt pid.toNat_lt
  have hread : Numeral.read maxPid (trim s.toList) = .ok pid.toNat ↔ Denotes s pid.toNat := by
    rw [Numeral.read_eq_ok_iff, denotes_iff, and_iff_left hmax]
  rw [← hread, parse]
  cases hn : Numeral.read maxPid (trim s.toList) with
  | error fault => simp
  | ok n =>
    have hle : n ≤ maxPid := (Numeral.read_eq_ok_iff.mp hn).2
    have hlt : n < 2 ^ 32 := Nat.lt_of_le_pred (by decide) hle
    rw [Except.ok.injEq, Except.ok.injEq, ← UInt32.toNat_inj, UInt32.toNat_ofNat_of_lt' hlt]

lemma denotes_text (pid : UInt32) : Denotes (text pid) pid.toNat :=
  ⟨[], (text pid).toList, [], by simp, nofun, Numeral.denotes_decimal pid.toNat⟩

end PidFile

end ProvenanceRelay
