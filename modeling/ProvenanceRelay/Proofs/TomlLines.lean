import Mathlib
import ProvenanceRelay.Proofs.TomlStrings
import ProvenanceRelay.Toml.Reader

/-!
A line that is written is read back.

A value is read with the fuel that its length gives it, and up to the line end behind it. A text of
such lines and empty ones is read line by line.
-/

namespace ProvenanceRelay.Toml

variable {c : Char} {cs rest : Text} {n d : ℕ}

/-! ### Blanks -/

/-- A character that neither blanks, line ends nor comments start with. -/
def Visible (c : Char) : Prop := isSpace c = false ∧ c ≠ '#' ∧ c ≠ '\n' ∧ c ≠ '\r'

lemma skipSpace_cons (h : isSpace c = false) (cs : Text) : skipSpace (c :: cs) = c :: cs := by
  simp [skipSpace, h]

lemma skipLayout_cons (h : Visible c) (n : ℕ) (cs : Text) :
    skipLayout (n + 1) (c :: cs) = some (c :: cs) := by
  obtain ⟨hspace, hcomment, hline, hreturn⟩ := h
  rw [skipLayout, skipSpace_cons hspace]
  split <;> simp_all

lemma skipLayout_newline (n : ℕ) (cs : Text) :
    skipLayout (n + 1) ('\n' :: cs) = skipLayout n cs := by
  rw [skipLayout, skipSpace_cons (by decide)]
  rfl

lemma skipLayout_indented (h : Visible c) (n : ℕ) (cs : Text) :
    skipLayout (n + 1) (' ' :: ' ' :: ' ' :: ' ' :: c :: cs) = some (c :: cs) := by
  have hskip : skipSpace (' ' :: ' ' :: ' ' :: ' ' :: c :: cs) = skipSpace (c :: cs) := by
    simp [skipSpace, isSpace]
  rw [← skipLayout_cons h n cs, skipLayout, skipLayout, hskip]

lemma lineEnd?_newline (cs : Text) : lineEnd? ('\n' :: cs) = some cs := by
  rw [lineEnd?, skipSpace_cons (by decide)]
  rfl

lemma lineEnd?_cons (h : Visible c) (cs : Text) : lineEnd? (c :: cs) = none := by
  obtain ⟨hspace, hcomment, hline, hreturn⟩ := h
  have hskip : skipComment (c :: cs) = c :: cs := by
    unfold skipComment
    split <;> simp_all
  rw [lineEnd?, skipSpace_cons hspace, hskip]
  exact newline?_eq_none (by simpa using hline) (by simpa using hreturn)

/-! ### Strings -/

lemma exists_stringText (s : String) :
    ∃ c cs, (stringText s).toList = c :: cs ∧ (c = '"' ∨ c = '\'') := by
  unfold stringText
  dsimp only
  cases form s.toList with
  | basic => exact ⟨'"', _, by simp only [String.toList_append]; rfl, .inl rfl⟩
  | literal => exact ⟨'\'', _, by simp only [String.toList_append]; rfl, .inr rfl⟩
  | multiBasic => exact ⟨'"', _, by simp only [String.toList_append]; rfl, .inl rfl⟩
  | multiLiteral => exact ⟨'\'', _, by simp only [String.toList_append]; rfl, .inr rfl⟩

lemma visible_of_quote (h : c = '"' ∨ c = '\'') : Visible c := by
  rcases h with rfl | rfl <;> exact ⟨by decide, by decide, by decide, by decide⟩

lemma value?_stringText (n d : ℕ) (s : String) (rest : Text) (hdouble : rest.head? ≠ some '"')
    (hsingle : rest.head? ≠ some '\'') :
    value? (n + 1) d ((stringText s).toList ++ rest) = some (.string s, rest) := by
  obtain ⟨c, cs, hcs, hquote⟩ := exists_stringText s
  have hread := string?_stringText s hdouble hsingle
  rw [hcs, List.cons_append] at hread ⊢
  rw [value?.eq_def]
  dsimp only
  rw [if_pos hquote, hread, Option.map_some, String.ofList_toList]

/-! ### Arrays of strings -/

/-- An element that a comma or the closing bracket follows. -/
lemma elements?_cons {v : Value} {t : Text} (hskip : skipLayout cs.length cs = some (c :: t))
    (hc : c ≠ ']') (hvalue : value? n d (c :: t) = some (v, rest)) :
    elements? (n + 1) d cs =
      match skipLayout rest.length rest with
      | some (',' :: rest) => (elements? n d rest).map fun (vs, rest) => (v :: vs, rest)
      | some (']' :: rest) => some ([v], rest)
      | _ => none := by
  rw [elements?, hskip]
  split
  · simp_all
  · simp_all
  · next heq =>
    obtain rfl := Option.some.inj heq
    exact hvalue ▸ rfl

lemma visible_close : Visible ']' := ⟨by decide, by decide, by decide, by decide⟩

lemma visible_comma : Visible ',' := ⟨by decide, by decide, by decide, by decide⟩

lemma ne_close_of_quote (h : c = '"' ∨ c = '\'') : c ≠ ']' := by
  rcases h with rfl | rfl <;> decide

lemma elements?_one (n d : ℕ) (s : String) (rest : Text) :
    elements? (n + 2) d ((stringText s).toList ++ ']' :: rest) = some ([.string s], rest) := by
  obtain ⟨c, cs, hcs, hquote⟩ := exists_stringText s
  have hread := value?_stringText n d s (']' :: rest) (by simp) (by simp)
  rw [hcs, List.cons_append] at hread ⊢
  rw [elements?_cons (skipLayout_cons (visible_of_quote hquote) _ _) (ne_close_of_quote hquote)
    hread, List.length_cons, skipLayout_cons visible_close]
  rfl

/-- The lines of an array. -/
def elementLines (xs : List String) : Text :=
  xs.flatMap fun x => ' ' :: ' ' :: ' ' :: ' ' :: ((stringText x).toList ++ [',', '\n'])

lemma elements?_lines (d : ℕ) (xs : List String) (hn : xs.length < n) (rest : Text) :
    elements? n d ('\n' :: (elementLines xs ++ ']' :: rest)) = some (xs.map .string, rest) := by
  induction xs generalizing n with
  | nil =>
    obtain ⟨n, rfl⟩ := Nat.exists_eq_succ_of_ne_zero (Nat.ne_of_gt hn)
    have hskip (m : ℕ) : skipLayout (m + 2) ('\n' :: ']' :: rest) = some (']' :: rest) := by
      rw [skipLayout_newline, skipLayout_cons visible_close]
    rw [elementLines, List.flatMap_nil, List.nil_append, elements?, List.length_cons,
      List.length_cons, hskip]
    rfl
  | cons x xs ih =>
    rw [List.length_cons] at hn
    obtain ⟨n, rfl⟩ : ∃ m, n = m + 2 := ⟨n - 2, by omega⟩
    obtain ⟨c, cs, hcs, hquote⟩ := exists_stringText x
    have hread := value?_stringText n d x (',' :: '\n' :: (elementLines xs ++ ']' :: rest))
      (by simp) (by simp)
    have hlines : elementLines (x :: xs) ++ ']' :: rest = ' ' :: ' ' :: ' ' :: ' ' ::
        ((stringText x).toList ++ ',' :: '\n' :: (elementLines xs ++ ']' :: rest)) := by
      simp [elementLines]
    rw [hcs, List.cons_append] at hread hlines
    have hskip (m : ℕ) : skipLayout (m + 2) ('\n' :: (elementLines (x :: xs) ++ ']' :: rest)) =
        some (c :: (cs ++ ',' :: '\n' :: (elementLines xs ++ ']' :: rest))) := by
      rw [hlines, skipLayout_newline, skipLayout_indented (visible_of_quote hquote)]
    have hlength : ('\n' :: (elementLines (x :: xs) ++ ']' :: rest)).length =
        (cs ++ ',' :: '\n' :: (elementLines xs ++ ']' :: rest)).length + 4 + 2 := by
      rw [hlines]
      rfl
    rw [elements?_cons (by rw [hlength, hskip]) (ne_close_of_quote hquote) hread, List.length_cons,
      skipLayout_cons visible_comma]
    show (elements? (n + 1) d ('\n' :: (elementLines xs ++ ']' :: rest))).map _ = _
    rw [ih (by omega)]
    rfl

/-! ### Scalars -/

lemma while_append_cons {p : Char → Bool} {b : Char} (hcs : ∀ c ∈ cs, p c = true)
    (hb : ¬ p b = true) (rest : Text) :
    (cs ++ b :: rest).takeWhile p = cs ∧ (cs ++ b :: rest).dropWhile p = b :: rest := by
  rw [List.takeWhile_append_of_pos hcs, List.takeWhile_cons_of_neg hb, List.append_nil,
    List.dropWhile_append_of_pos hcs, List.dropWhile_cons_of_neg hb]
  exact ⟨rfl, rfl⟩

lemma scalarText_append (hcs : ∀ c ∈ cs, isScalarChar c = true) (rest : Text) :
    scalarText (cs ++ '\n' :: rest) = (cs, '\n' :: rest) := by
  obtain ⟨htake, hdrop⟩ := while_append_cons hcs (b := '\n') (by decide) rest
  rw [scalarText, htake, hdrop]
  rfl

lemma value?_scalar (hne : cs ≠ []) (hcs : ∀ c ∈ cs, isScalarChar c = true) (n d : ℕ)
    (rest : Text) : value? (n + 1) d (cs ++ '\n' :: rest) = scalar? (cs ++ '\n' :: rest) := by
  obtain ⟨c, cs, rfl⟩ := List.exists_cons_of_ne_nil hne
  have hother {x : Char} (hx : isScalarChar x = false) : c ≠ x := by
    rintro rfl
    rw [hcs c List.mem_cons_self] at hx
    cases hx
  have hquote : ¬ (c = '"' ∨ c = '\'') := not_or.mpr ⟨hother rfl, hother rfl⟩
  rw [List.cons_append, value?.eq_def]
  dsimp only
  rw [if_neg hquote, if_neg (hother rfl), if_neg (hother rfl)]

lemma value?_boolean (n d : ℕ) (b : Bool) (rest : Text) :
    value? (n + 1) d ((if b then "true" else "false").toList ++ '\n' :: rest) =
      some (.boolean b, '\n' :: rest) := by
  have htoken : ∀ c ∈ (if b then "true" else "false").toList, isScalarChar c = true := by
    cases b <;> simp [isScalarChar, isBareKey]
  rw [value?_scalar (by cases b <;> decide) htoken, scalar?, scalarText_append htoken]
  cases b <;> rfl

/-! ### Numbers -/

lemma isDecimal_of_isDigit (h : c.isDigit = true) : isDecimal c = true := by
  simpa [Char.isDigit, isDecimal, Char.le_def] using h

lemma isBareKey_of_isDecimal (h : isDecimal c = true) : isBareKey c = true := by
  simp only [isDecimal, Bool.and_eq_true, decide_eq_true_eq] at h
  simp [isBareKey, h]

lemma digitsValue_append_singleton (b : ℕ) (ds : List Char) {x : ℕ} (hc : hexDigit? c = some x) :
    digitsValue b (ds ++ [c]) = digitsValue b ds * b + x := by
  simp [digitsValue, hc]

lemma hexDigit?_digitChar {n : ℕ} (hn : n < 16) : hexDigit? n.digitChar = some n := by
  interval_cases n <;> rfl

lemma digitsValue_toDigits {b : ℕ} (hb : 1 < b) (hb' : b ≤ 16) (n : ℕ) :
    digitsValue b (Nat.toDigits b n) = n := by
  induction n using Nat.strong_induction_on with
  | _ n ih =>
    by_cases hn : n < b
    · rw [Nat.toDigits_of_lt_base hn]
      have := digitsValue_append_singleton b [] (hexDigit?_digitChar (Nat.lt_of_lt_of_le hn hb'))
      simpa [digitsValue] using this
    · have hmod : n % b < b := Nat.mod_lt n (by omega)
      rw [Nat.toDigits_of_base_le hb (by omega),
        digitsValue_append_singleton b _ (hexDigit?_digitChar (Nat.lt_of_lt_of_le hmod hb')),
        ih (n / b) (Nat.div_lt_self (by omega) hb), Nat.div_add_mod']

lemma head?_toDigits {n : ℕ} (hn : 0 < n) : (Nat.toDigits 10 n).head? ≠ some '0' := by
  induction n using Nat.strong_induction_on with
  | _ n ih =>
    by_cases hlt : n < 10
    · rw [Nat.toDigits_of_lt_base hlt]
      interval_cases n <;> decide
    · rw [Nat.toDigits_of_base_le (by omega) (by omega),
        List.head?_append_of_ne_nil _ Nat.toDigits_ne_nil]
      exact ih (n / 10) (by omega) (by omega)

lemma digits?_eq_some (hne : cs ≠ []) (hcs : ∀ c ∈ cs, isDecimal c = true) :
    digits? isDecimal cs = some cs := by
  have hunderscore : isDecimal '_' = false := by decide
  fun_induction digits? isDecimal cs <;> simp_all

lemma isDecimal_of_mem_toDigits {n : ℕ} : ∀ c ∈ Nat.toDigits 10 n, isDecimal c = true := by
  intro c hc
  exact isDecimal_of_isDigit (Nat.isDigit_of_mem_toDigits (by omega) (by omega) hc)

lemma signed_eq (hcs : ∀ c ∈ cs, isDecimal c = true) : signed cs = (false, cs) := by
  unfold signed
  split
  · exact absurd (hcs '-' List.mem_cons_self) (by decide)
  · exact absurd (hcs '+' List.mem_cons_self) (by decide)
  · rfl

lemma plainDigits?_toDigits (n : ℕ) :
    plainDigits? (Nat.toDigits 10 n) = some (Nat.toDigits 10 n) := by
  rcases Nat.eq_zero_or_pos n with rfl | hn
  · rfl
  · have hhead := head?_toDigits hn
    unfold plainDigits?
    split
    · next heq => simp [heq] at hhead
    · exact digits?_eq_some Nat.toDigits_ne_nil isDecimal_of_mem_toDigits

lemma integer?_toDigits {n : ℕ} (hn : (n : ℤ) ≤ maxInteger) :
    integer? (Nat.toDigits 10 n) = some (n : ℤ) := by
  have hdecimal := isDecimal_of_mem_toDigits (n := n)
  have hrange : minInteger ≤ (n : ℤ) ∧ (n : ℤ) ≤ maxInteger := by
    have hmin : minInteger ≤ 0 := by decide
    omega
  unfold integer?
  split
  · next heq => exact absurd (hdecimal 'x' (by simp [heq])) (by decide)
  · next heq => exact absurd (hdecimal 'o' (by simp [heq])) (by decide)
  · next heq => exact absurd (hdecimal 'b' (by simp [heq])) (by decide)
  · have hvalue := digitsValue_toDigits (b := 10) (by omega) (by omega) n
    simp only [signed_eq hdecimal, plainDigits?_toDigits, Option.bind_some, hvalue,
      Bool.false_eq_true, if_false, inRange?, hrange]
    rfl

lemma isScalarChar_of_mem_toDigits {n : ℕ} : ∀ c ∈ Nat.toDigits 10 n, isScalarChar c = true := by
  intro c hc
  simp [isScalarChar, isBareKey_of_isDecimal (isDecimal_of_mem_toDigits c hc)]

lemma value?_decimal {n : ℕ} (hn : (n : ℤ) ≤ maxInteger) (m d : ℕ) (rest : Text) :
    value? (m + 1) d ((Text.Numeral.decimal n).toList ++ '\n' :: rest) =
      some (.integer n, '\n' :: rest) := by
  have hdecimal := isDecimal_of_mem_toDigits (n := n)
  have hne {x : Char} {xs : List Char} (hx : isDecimal x = false) :
      Nat.toDigits 10 n ≠ x :: xs := by
    intro heq
    have hmem := hdecimal x (by simp [heq])
    rw [hx] at hmem
    cases hmem
  have hspecial : isSpecialFloat (Nat.toDigits 10 n) = false := by
    simp [isSpecialFloat, signed_eq hdecimal, hne (x := 'i') rfl, hne (x := 'n') rfl]
  rw [Text.Numeral.decimal, String.toList_ofList,
    value?_scalar Nat.toDigits_ne_nil isScalarChar_of_mem_toDigits]
  simp only [scalar?, scalarText_append isScalarChar_of_mem_toDigits, hne (x := 't') rfl,
    hne (x := 'f') rfl, hspecial, integer?_toDigits hn, if_false, Bool.false_eq_true,
    Option.map_some]

/-! ### Settings -/

lemma value?_array (n d : ℕ) (cs : Text) :
    value? (n + 1) (d + 1) ('[' :: cs) =
      (elements? n d cs).map fun (vs, rest) => (.array vs, rest) := by
  rw [value?.eq_def]
  dsimp only
  rw [if_neg (by decide), if_pos rfl]

lemma length_le_elementLines (xs : List String) : xs.length ≤ (elementLines xs).length := by
  induction xs with
  | nil => simp
  | cons x xs ih =>
    rw [elementLines, List.flatMap_cons, ← elementLines, List.length_append, List.length_cons,
      List.length_cons]
    omega

lemma toList_text_singleton (x : String) :
    (Setting.strings [x]).text.toList = '[' :: ((stringText x).toList ++ [']']) := by
  rw [Setting.text, String.toList_append, String.toList_append]
  rfl

lemma toList_text_strings (x y : String) (xs : List String) :
    (Setting.strings (x :: y :: xs)).text.toList =
      '[' :: '\n' :: (elementLines (x :: y :: xs) ++ [']']) := by
  have hlines : (String.join ((x :: y :: xs).map fun x => "    " ++ stringText x ++ ",\n")).toList =
      elementLines (x :: y :: xs) := by
    rw [String.toList_join, List.flatMap_map, elementLines]
    congr
    funext x
    simp
  rw [Setting.text, String.toList_append, String.toList_append, hlines]
  · rfl
  · simp
  · simp

/-- **A setting that is written is read back**, up to the end of its line. -/
lemma value?_text {v : Setting} (hv : v.fits = true) {n d : ℕ} (hn : v.text.toList.length + 2 ≤ n)
    (hd : 0 < d) (rest : Text) :
    value? n d (v.text.toList ++ '\n' :: rest) = some (v.toValue, '\n' :: rest) := by
  obtain ⟨n, rfl⟩ : ∃ m, n = m + 2 := ⟨n - 2, by omega⟩
  obtain ⟨d, rfl⟩ : ∃ e, d = e + 1 := ⟨d - 1, by omega⟩
  cases v with
  | string s => exact value?_stringText (n + 1) (d + 1) s _ (by simp) (by simp)
  | integer k => exact value?_decimal (by simpa [Setting.fits] using hv) (n + 1) (d + 1) rest
  | boolean b => exact value?_boolean (n + 1) (d + 1) b rest
  | strings xs =>
    match xs with
    | [] =>
      show value? (n + 2) (d + 1) ('[' :: ']' :: '\n' :: rest) = _
      rw [value?_array, elements?, List.length_cons, skipLayout_cons visible_close]
      rfl
    | [x] =>
      rw [toList_text_singleton] at hn ⊢
      simp only [List.length_cons, List.length_append] at hn
      obtain ⟨n, rfl⟩ : ∃ m, n = m + 1 := ⟨n - 1, by omega⟩
      rw [List.cons_append, List.append_assoc, List.singleton_append, value?_array, elements?_one]
      rfl
    | x :: y :: xs =>
      rw [toList_text_strings] at hn ⊢
      have hlines := length_le_elementLines (x :: y :: xs)
      simp only [List.length_cons, List.length_append] at hn hlines
      rw [List.cons_append, List.cons_append, List.append_assoc, List.singleton_append,
        value?_array, elements?_lines d _ (by simp only [List.length_cons]; omega)]
      rfl

/-! ### Keys -/

/-- A key that is written without quotes. -/
structure Bare (k : String) : Prop where
  ne_nil : k.toList ≠ []
  all : ∀ c ∈ k.toList, isBareKey c = true

lemma ne_of_isBareKey {b : Char} (h : isBareKey c = true) (hb : isBareKey b = false) : c ≠ b := by
  rintro rfl
  rw [h] at hb
  cases hb

lemma visible_of_isBareKey (h : isBareKey c = true) : Visible c := by
  refine ⟨?_, ne_of_isBareKey h rfl, ne_of_isBareKey h rfl, ne_of_isBareKey h rfl⟩
  simp [isSpace, ne_of_isBareKey h (b := ' ') rfl, ne_of_isBareKey h (b := '\t') rfl]

variable {k : String}

lemma Bare.exists_cons (h : Bare k) : ∃ c cs, k.toList = c :: cs ∧ isBareKey c = true := by
  cases hk : k.toList with
  | nil => exact absurd hk h.ne_nil
  | cons c cs => exact ⟨c, cs, rfl, h.all c (by simp [hk])⟩

lemma Bare.simpleKey? (h : Bare k) {b : Char} (hb : isBareKey b = false) (rest : Text) :
    Toml.simpleKey? (k.toList ++ b :: rest) = some (k, b :: rest) := by
  have hb' : ¬ isBareKey b = true := by simp [hb]
  obtain ⟨htake, hdrop⟩ := while_append_cons h.all hb' rest
  obtain ⟨c, cs, hk, hc⟩ := h.exists_cons
  unfold Toml.simpleKey?
  split
  · next heq =>
    rw [hk] at heq
    exact absurd (List.cons.inj heq).1 (ne_of_isBareKey hc rfl)
  · next heq =>
    rw [hk] at heq
    exact absurd (List.cons.inj heq).1 (ne_of_isBareKey hc rfl)
  · rw [htake, hdrop]
    dsimp only
    rw [if_neg (by simpa using h.ne_nil), String.ofList_toList]

lemma Bare.keyPath? (h : Bare k) {b : Char} (hb : isBareKey b = false) {rest t : Text} {e : Char}
    (hskip : skipSpace (b :: rest) = e :: t) (hdot : e ≠ '.') :
    Toml.keyPath? maxDepth (k.toList ++ b :: rest) = some ([k], e :: t) := by
  have hstart : skipSpace (k.toList ++ b :: rest) = k.toList ++ b :: rest := by
    obtain ⟨c, cs, hk, hc⟩ := h.exists_cons
    rw [hk, List.cons_append, skipSpace_cons (visible_of_isBareKey hc).1]
  rw [maxDepth, Toml.keyPath?, hstart, h.simpleKey? hb]
  simp only [Option.bind_eq_bind, Option.bind_some, hskip]
  split
  · next heq => exact absurd (List.cons.inj heq).1 hdot
  · rfl

/-! ### Lines -/

/-- A line that is read whatever follows its end. -/
structure Reads (t : Text) (l : Line) : Prop where
  starts : ∃ c cs, t = c :: cs ∧ Visible c
  reads : ∀ rest, line? (t ++ '\n' :: rest) = some (l, '\n' :: rest)

lemma Bare.reads_table (h : Bare k) : Reads ('[' :: (k.toList ++ [']'])) (.table [k]) where
  starts := ⟨_, _, rfl, by decide, by decide, by decide, by decide⟩
  reads rest := by
    obtain ⟨c, cs, hk, hc⟩ := h.exists_cons
    have hpath := h.keyPath? (b := ']') rfl (skipSpace_cons rfl ('\n' :: rest)) (by decide)
    have hheader : header? [']'] (k.toList ++ ']' :: '\n' :: rest) = some ([k], '\n' :: rest) := by
      rw [header?, hpath]
      rfl
    rw [hk, List.cons_append] at hheader
    rw [List.cons_append, List.append_assoc, List.singleton_append, hk, List.cons_append, line?,
      hheader]
    · rfl
    · rintro t heq
      exact ne_of_isBareKey hc rfl (List.cons.inj heq).1

lemma exists_text (v : Setting) : ∃ c cs, v.text.toList = c :: cs ∧ isSpace c = false := by
  cases v with
  | string s =>
    obtain ⟨c, cs, hcs, hquote⟩ := exists_stringText s
    exact ⟨c, cs, hcs, (visible_of_quote hquote).1⟩
  | integer n =>
    rw [Setting.text, Text.Numeral.decimal, String.toList_ofList]
    cases hds : Nat.toDigits 10 n with
    | nil => exact absurd hds Nat.toDigits_ne_nil
    | cons c ds =>
      have hc : isDecimal c = true := isDecimal_of_mem_toDigits (n := n) c (by simp [hds])
      exact ⟨c, ds, rfl, (visible_of_isBareKey (isBareKey_of_isDecimal hc)).1⟩
  | boolean b => cases b <;> exact ⟨_, _, rfl, rfl⟩
  | strings xs =>
    match xs with
    | [] => exact ⟨_, _, rfl, rfl⟩
    | [x] => exact ⟨_, _, toList_text_singleton x, rfl⟩
    | x :: y :: xs => exact ⟨_, _, toList_text_strings x y xs, rfl⟩

lemma Bare.reads_entry (h : Bare k) {v : Setting} (hv : v.fits = true) :
    Reads (k.toList ++ ' ' :: '=' :: ' ' :: v.text.toList) (.entry [k] v.toValue) where
  starts := by
    obtain ⟨c, cs, hk, hc⟩ := h.exists_cons
    exact ⟨c, _, by rw [hk, List.cons_append], visible_of_isBareKey hc⟩
  reads rest := by
    obtain ⟨c, cs, hk, hc⟩ := h.exists_cons
    have hskip : skipSpace (' ' :: '=' :: ' ' :: (v.text.toList ++ '\n' :: rest)) =
        '=' :: ' ' :: (v.text.toList ++ '\n' :: rest) := rfl
    have hpath := h.keyPath? rfl hskip (by decide)
    have hvalue : skipSpace (' ' :: (v.text.toList ++ '\n' :: rest)) =
        v.text.toList ++ '\n' :: rest := by
      obtain ⟨d, ds, hd, hspace⟩ := exists_text v
      rw [hd, List.cons_append]
      exact skipSpace_cons hspace _
    simp only [List.append_assoc, List.cons_append]
    unfold line?
    split
    · next heq => rw [hk] at heq; exact absurd (List.cons.inj heq).1 (ne_of_isBareKey hc rfl)
    · next heq => rw [hk] at heq; exact absurd (List.cons.inj heq).1 (ne_of_isBareKey hc rfl)
    · rw [hpath]
      show (value? (work _) maxDepth (skipSpace (' ' :: (v.text.toList ++ '\n' :: rest)))).map _ = _
      rw [hvalue, value?_text hv ?_ (by decide)]
      · rfl
      · simp only [work, List.length_cons, List.length_append]
        omega

/-- A text of lines that are read, with empty lines among them. -/
inductive Written : Text → List Line → Prop where
  | nil : Written [] []
  | empty {t : Text} {ls : List Line} (more : Written t ls) : Written ('\n' :: t) ls
  | line {t u : Text} {l : Line} {ls : List Line} (reads : Reads t l) (more : Written u ls) :
      Written (t ++ '\n' :: u) (l :: ls)

lemma Written.eq_nil {ls : List Line} (h : Written [] ls) : ls = [] := by
  generalize ht : ([] : Text) = t at h
  cases h with
  | nil => rfl
  | empty => cases ht
  | line => simp at ht

/-- **A text is read line by line**, with fuel for each character. -/
lemma Written.linesFrom? {ls : List Line} (h : Written cs ls) (hn : cs.length < n) :
    Toml.linesFrom? n cs = some ls := by
  induction h generalizing n with
  | nil =>
    obtain ⟨n, rfl⟩ := Nat.exists_eq_succ_of_ne_zero (Nat.ne_of_gt hn)
    rfl
  | @empty t ls more ih =>
    obtain ⟨n, rfl⟩ : ∃ m, n = m + 1 := ⟨n - 1, by omega⟩
    rw [List.length_cons] at hn
    rw [Toml.linesFrom?, lineEnd?_newline]
    cases t with
    | nil => rw [more.eq_nil]
    | cons c t => exact ih (by omega)
  | @line t u l ls reads more ih =>
    obtain ⟨n, rfl⟩ : ∃ m, n = m + 1 := ⟨n - 1, by omega⟩
    obtain ⟨c, cs, rfl, hc⟩ := reads.starts
    have hline := reads.reads u
    simp only [List.length_append, List.length_cons] at hn
    rw [List.cons_append] at hline ⊢
    rw [Toml.linesFrom?, lineEnd?_cons hc, skipSpace_cons hc.1, hline]
    simp only [Option.bind_eq_bind, Option.bind_some, lineEnd?_newline]
    cases u with
    | nil =>
      rw [more.eq_nil]
      rfl
    | cons b u =>
      have hmore := ih (n := n) (by simp only [List.length_cons] at hn ⊢; omega)
      simp only [hmore]
      rfl

end ProvenanceRelay.Toml
