import Mathlib
import ProvenanceRelay.Json

/-!
The compact text of a value is one line.

Control characters are written as escapes, and all that is written besides can be printed.
-/

namespace ProvenanceRelay.Json

/-- Without control characters. -/
def Printable (t : String) : Prop := ∀ c ∈ t.toList, 0x20 ≤ c.toNat

lemma printable_append {s t : String} (hs : Printable s) (ht : Printable t) :
    Printable (s ++ t) := by
  intro c hc
  rw [String.toList_append] at hc
  rcases List.mem_append.mp hc with h | h
  · exact hs c h
  · exact ht c h

lemma printable_join {ts : List String} (h : ∀ t ∈ ts, Printable t) :
    Printable (String.join ts) := by
  intro c hc
  rw [String.toList_join] at hc
  obtain ⟨t, ht, hct⟩ := List.mem_flatMap.mp hc
  exact h t ht c hct

/-! ### Numbers -/

lemma le_digitChar (n : ℕ) : 0x20 ≤ n.digitChar.toNat := by
  by_cases h : n < 16
  · interval_cases n <;> decide
  · rw [Nat.digitChar_eq_star.mpr (by omega)]
    decide

lemma le_of_mem_toDigitsCore {b fuel n : ℕ} {cs : List Char} (hcs : ∀ c ∈ cs, 0x20 ≤ c.toNat) :
    ∀ c ∈ Nat.toDigitsCore b fuel n cs, 0x20 ≤ c.toNat := by
  induction fuel generalizing n cs with
  | zero => simpa [Nat.toDigitsCore] using hcs
  | succ fuel ih =>
    have hdigit : ∀ c ∈ (n % b).digitChar :: cs, 0x20 ≤ c.toNat :=
      List.forall_mem_cons.mpr ⟨le_digitChar _, hcs⟩
    rw [Nat.toDigitsCore]
    split
    · exact hdigit
    · exact ih hdigit

lemma le_of_mem_toDigits {b n : ℕ} : ∀ c ∈ Nat.toDigits b n, 0x20 ≤ c.toNat :=
  le_of_mem_toDigitsCore (by simp)

lemma printable_nat (n : ℕ) : Printable (toString n) := by
  intro c hc
  exact le_of_mem_toDigits c (by simpa [Nat.repr] using hc)

lemma printable_int (n : ℤ) : Printable (toString n) := by
  cases n with
  | ofNat n => exact printable_nat n
  | negSucc n =>
    have hsign : Printable "-" := by simp [Printable]
    exact printable_append hsign (printable_nat (n + 1))

/-! ### Strings -/

lemma printable_control (n : ℕ) :
    Printable ("\\u" ++ Text.Numeral.padLeft 4 (Text.Numeral.hex n)) := by
  have hmark : Printable "\\u" := by simp [Printable]
  refine printable_append hmark (printable_append ?_ ?_)
  · intro c hc
    rw [String.toList_ofList] at hc
    rw [List.eq_of_mem_replicate hc]
    decide
  · intro c hc
    rw [Text.Numeral.hex, String.toList_ofList] at hc
    exact le_of_mem_toDigits c hc

lemma printable_escape {c : Char} {e : String} (h : escape? c = some e) : Printable e := by
  unfold escape? at h
  split_ifs at h <;> simp only [Option.some.injEq] at h <;> subst h
  rotate_right
  · exact printable_control _
  all_goals simp [Printable]

lemma le_of_isPlain {c : Char} (h : isPlain c) : 0x20 ≤ c.toNat := by
  by_contra hlt
  have hlow : c.toNat < 0x20 := by omega
  rw [isPlain, Option.isNone_iff_eq_none, escape?] at h
  split_ifs at h

lemma printable_runs (cs : List Char) : ∀ t ∈ runs cs, Printable t := by
  fun_induction runs cs with
  | case1 => simp
  | case2 c cs e he ih =>
    intro t ht
    rcases List.mem_cons.mp ht with rfl | ht
    · exact printable_escape he
    · exact ih t ht
  | case3 c cs he ih =>
    intro t ht
    rcases List.mem_cons.mp ht with rfl | ht
    · intro b hb
      rw [String.toList_ofList] at hb
      rcases List.mem_cons.mp hb with rfl | hb
      · exact le_of_isPlain (by rw [isPlain, he]; rfl)
      · exact le_of_isPlain (List.mem_takeWhile_imp hb)
    · exact ih t ht

lemma printable_stringPieces (s : String) : ∀ t ∈ stringPieces s, Printable t := by
  intro t ht
  unfold stringPieces at ht
  rcases List.mem_cons.mp ht with rfl | ht
  · simp [Printable]
  rcases List.mem_append.mp ht with ht | ht
  · exact printable_runs _ t ht
  · rw [List.mem_singleton.mp ht]
    simp [Printable]

/-! ### Values -/

mutual

lemma printable_pieces : (j : Json) → ∀ t ∈ pieces j, Printable t
  | .null => by simp [pieces, Printable]
  | .bool b => by cases b <;> simp [pieces, Printable]
  | .int n => by
    intro t ht
    rw [pieces, List.mem_singleton] at ht
    exact ht ▸ printable_int n
  | .string s => by
    rw [pieces]
    exact printable_stringPieces s
  | .array xs => by
    rw [pieces, List.forall_mem_cons]
    exact ⟨by simp [Printable], printable_elementPieces xs⟩
  | .object fs => by
    rw [pieces, List.forall_mem_cons]
    exact ⟨by simp [Printable], printable_fieldPieces fs⟩

lemma printable_elementPieces : (xs : List Json) → ∀ t ∈ elementPieces xs, Printable t
  | [] => by simp [elementPieces, Printable]
  | x :: xs => by
    rw [elementPieces, List.forall_mem_append]
    exact ⟨printable_pieces x, printable_moreElementPieces xs⟩

lemma printable_moreElementPieces : (xs : List Json) → ∀ t ∈ moreElementPieces xs, Printable t
  | [] => by simp [moreElementPieces, Printable]
  | x :: xs => by
    rw [moreElementPieces, List.forall_mem_cons, List.forall_mem_append]
    exact ⟨by simp [Printable], printable_pieces x, printable_moreElementPieces xs⟩

lemma printable_fieldPieces : (fs : List (String × Json)) → ∀ t ∈ fieldPieces fs, Printable t
  | [] => by simp [fieldPieces, Printable]
  | (k, v) :: fs => by
    rw [fieldPieces, List.forall_mem_append, List.forall_mem_cons, List.forall_mem_append]
    exact ⟨printable_stringPieces k, by simp [Printable], printable_pieces v,
      printable_moreFieldPieces fs⟩

lemma printable_moreFieldPieces :
    (fs : List (String × Json)) → ∀ t ∈ moreFieldPieces fs, Printable t
  | [] => by simp [moreFieldPieces, Printable]
  | (k, v) :: fs => by
    rw [moreFieldPieces, List.forall_mem_cons, List.forall_mem_append, List.forall_mem_cons,
      List.forall_mem_append]
    exact ⟨by simp [Printable], printable_stringPieces k, by simp [Printable], printable_pieces v,
      printable_moreFieldPieces fs⟩

end

/-- **The compact text of a value has no control characters**, so it is one line. -/
lemma printable_compact (j : Json) : Printable j.compact := printable_join (printable_pieces j)

lemma newline_notMem_compact (j : Json) : '\n' ∉ j.compact.toList := by
  intro hmem
  have hle := printable_compact j '\n' hmem
  revert hle
  decide

end ProvenanceRelay.Json
