import Mathlib
import ProvenanceRelay.Toml.Lexeme
import ProvenanceRelay.Toml.Printer

/-!
A string that is written is read back, whatever comes next but a quote.

What is written between the quotes is a piece for each character: the character itself or an
escape. In the forms over several lines a quote may stand for itself, and whether it belongs to the
closing ones is only known three characters later; so the induction carries the quotes that are
written and not yet read.
-/

namespace ProvenanceRelay.Toml

variable {c q : Char} {cs rest : Text} {k : ℕ}

/-! ### Escapes -/

/-- The text is an escape of the character. -/
inductive Escape : Char → List Char → Prop where
  | short {e c : Char} (h : shortEscape? e = some c) : Escape c ['\\', e]
  | number {a b c d x : Char} (h : codePoint? [a, b, c, d] = some x) :
      Escape x ['\\', 'u', a, b, c, d]

lemma mem_of_shortEscape? {e x : Char} (h : shortEscape? e = some x) :
    e ∈ ['b', 't', 'n', 'f', 'r', '"', '\\'] := by
  unfold shortEscape? at h
  split at h <;> simp at h ⊢

/-- The digits of a number as they are written in an escape. -/
def escapeDigits (n : ℕ) : List Char :=
  let ds := (Nat.toDigits 16 n).map Char.toUpper
  List.replicate (4 - ds.length) '0' ++ ds

lemma escape_escapeDigits {n : ℕ} (h : n < 0x20 ∨ n = 0x7F) :
    Escape (Char.ofNat n) ('\\' :: 'u' :: escapeDigits n) := by
  have hn : n < 128 := by omega
  interval_cases n <;> exact .number (by decide)

/-- Whatever needs an escape has one, and so have some that do not. -/
lemma escape_escapeText (h : needsEscape c = true ∨ c = '\t' ∨ c = '\n' ∨ c = '\\' ∨ c = '"') :
    Escape c (escapeText c).toList := by
  have hc : Char.ofNat c.toNat = c := Char.ofNat_toNat c
  unfold escapeText
  split_ifs with hback htab hline hfeed hreturn hquote hslash
  · rw [← hc, hback]
    exact .short rfl
  · exact htab ▸ .short rfl
  · exact hline ▸ .short rfl
  · rw [← hc, hfeed]
    exact .short rfl
  · exact hreturn ▸ .short rfl
  · exact hquote ▸ .short rfl
  · exact hslash ▸ .short rfl
  · have hneeds : needsEscape c = true := by simp_all
    simp only [needsEscape, Bool.or_eq_true, Bool.and_eq_true, decide_eq_true_eq] at hneeds
    have hnumber := escape_escapeDigits (n := c.toNat) (by omega)
    rw [hc] at hnumber
    simpa [Text.Numeral.padLeft, escapeDigits] using hnumber

lemma isPrintable_of_not_needsEscape (h : ¬ needsEscape c = true) (hline : c ≠ '\n') :
    isPrintable c = true := by
  simp only [needsEscape, isPrintable, Bool.or_eq_true, Bool.and_eq_true, decide_eq_true_eq] at h ⊢
  grind

lemma ne_return_of_isPrintable (h : isPrintable c = true) : c ≠ '\r' := by
  rintro rfl
  revert h
  decide

/-! ### The body of a basic string -/

/-- What is written for a character that is no pending quote. -/
inductive Piece (multi : Bool) : Char → List Char → Prop where
  | escape {c : Char} {t : List Char} (h : Escape c t) : Piece multi c t
  | plain {c : Char} (printable : isPrintable c = true) (quote : c ≠ '"') (slash : c ≠ '\\') :
      Piece multi c [c]
  | line (h : multi = true) : Piece multi '\n' ['\n']

lemma Piece.head?_ne {multi : Bool} {t : List Char} (h : Piece multi c t) :
    ∃ d ds, t = d :: ds ∧ d ≠ '"' ∧ d ≠ '\r' ∧ (d = '\n' → c = '\n') := by
  cases h with
  | escape h =>
    cases h with
    | short h => exact ⟨_, _, rfl, by decide, by decide, by simp⟩
    | number h => exact ⟨_, _, rfl, by decide, by decide, by simp⟩
  | plain printable quote slash =>
    exact ⟨c, [], rfl, quote, ne_return_of_isPrintable printable, id⟩
  | line h => exact ⟨_, _, rfl, by decide, by decide, by simp⟩

lemma basicBody_cons (multi : Bool) (k : ℕ) (c : Char) (cs : List Char) :
    (multi = true ∧ c = '"' ∧ k < 2 ∧
      (basicBody multi k (c :: cs)).toList = '"' :: (basicBody multi (k + 1) cs).toList) ∨
    ∃ t, Piece multi c t ∧
      (basicBody multi k (c :: cs)).toList = t ++ (basicBody multi 0 cs).toList := by
  rw [basicBody]
  split_ifs with hquote hpending hline hescape
  · exact .inl ⟨hpending.1, hquote, hpending.2, by simp⟩
  · exact .inr ⟨['\\', '"'], .escape (.short (by rw [hquote]; rfl)), by simp⟩
  · exact .inr ⟨['\n'], hline.1 ▸ .line hline.2, by simp⟩
  · refine .inr ⟨_, .escape (escape_escapeText ?_), String.toList_append⟩
    tauto
  · simp only [not_or] at hescape
    obtain ⟨hplain, -, hnewline, hslash⟩ := hescape
    exact .inr ⟨[c], .plain (isPrintable_of_not_needsEscape hplain hnewline) hquote hslash, by simp⟩

/-! ### On one line -/

lemma basic?_plain (hc : isPrintable c = true) (hquote : c ≠ '"') (hslash : c ≠ '\\') (cs : Text) :
    basic? (c :: cs) = prepend c (basic? cs) := by
  rw [basic?, if_pos ⟨hc, hslash⟩] <;> simp_all

lemma basic?_escape {t : List Char} (h : Escape c t) (cs : Text) :
    basic? (t ++ cs) = prepend c (basic? cs) := by
  cases h with
  | short h =>
    have hmem := mem_of_shortEscape? h
    simp only [List.mem_cons, List.not_mem_nil, or_false] at hmem
    rcases hmem with rfl | rfl | rfl | rfl | rfl | rfl | rfl <;> simp [basic?, h]
  | number h => simp [basic?, h]

lemma basic?_piece {t : List Char} (h : Piece false c t) (cs : Text) :
    basic? (t ++ cs) = prepend c (basic? cs) := by
  cases h with
  | escape h => exact basic?_escape h cs
  | plain printable quote slash => exact basic?_plain printable quote slash cs
  | line h => cases h

lemma basic?_basicBody (k : ℕ) (cs : List Char) (rest : Text) :
    basic? ((basicBody false k cs).toList ++ '"' :: rest) = some (cs, rest) := by
  induction cs generalizing k with
  | nil => simp [basicBody, basic?]
  | cons c cs ih =>
    rcases basicBody_cons false k c cs with ⟨hmulti, -⟩ | ⟨t, ht, hbody⟩
    · cases hmulti
    · rw [hbody, List.append_assoc, basic?_piece ht, ih]
      rfl

lemma literal?_append (hcs : ∀ c ∈ cs, isPrintable c = true ∧ c ≠ '\'') (rest : Text) :
    literal? (cs ++ '\'' :: rest) = some (cs, rest) := by
  induction cs with
  | nil => rfl
  | cons c cs ih =>
    obtain ⟨⟨hc, hquote⟩, hcs⟩ := List.forall_mem_cons.mp hcs
    rw [List.cons_append, literal?, if_pos hc, ih hcs]
    · rfl
    · exact hquote

/-! ### On several lines -/

/-- What reads a string that three quotes end and that may have up to two of them in a row. -/
structure ReadsQuotes (q : Char) (read : Text → Option (List Char × Text)) : Prop where
  closes : ∀ cs, read (q :: q :: q :: cs) = some (closing q cs)
  quote : ∀ cs, ¬ [q, q] <+: cs → read (q :: cs) = prepend q (read cs)

lemma closing_append (hk : k ≤ 2) (hrest : rest.head? ≠ some q) :
    closing q (List.replicate k q ++ rest) = (List.replicate k q, rest) := by
  have hnone : closing q rest = ([], rest) := by
    rcases rest with _ | ⟨a, _ | ⟨b, rest⟩⟩ <;> simp_all [closing]
  interval_cases k
  · exact hnone
  · rcases rest with _ | ⟨a, rest⟩ <;> simp_all [closing]
  · simp [closing]

namespace ReadsQuotes

variable {read : Text → Option (List Char × Text)}

/-- Quotes in front of the closing ones belong to the string. -/
lemma append_closing (h : ReadsQuotes q read) (hk : k ≤ 2) (hrest : rest.head? ≠ some q) :
    read (List.replicate k q ++ q :: q :: q :: rest) = some (List.replicate k q, rest) := by
  have hswap : List.replicate k q ++ q :: q :: q :: rest =
      q :: q :: q :: (List.replicate k q ++ rest) := by
    interval_cases k <;> rfl
  rw [hswap, h.closes, closing_append hk hrest]

lemma append (h : ReadsQuotes q read) (hk : k ≤ 2) (hcs : cs.head? ≠ some q) :
    read (List.replicate k q ++ cs) =
      (read cs).map fun r => (List.replicate k q ++ r.1, r.2) := by
  have hone : ¬ [q, q] <+: cs := by
    rintro ⟨t, rfl⟩
    simp at hcs
  have htwo : ¬ [q, q] <+: q :: cs := by
    rintro ⟨t, ht⟩
    obtain rfl := (List.cons.inj ht).2
    simp at hcs
  interval_cases k
  · simp
  · rw [List.replicate_one, List.singleton_append, h.quote cs hone]
    rfl
  · show read (q :: q :: cs) = _
    rw [h.quote _ htwo, h.quote cs hone]
    cases read cs <;> rfl

end ReadsQuotes

lemma replicate_append_cons (k : ℕ) (q : Char) (cs : List Char) :
    List.replicate k q ++ q :: cs = List.replicate (k + 1) q ++ cs := by
  rw [List.replicate_succ', List.append_assoc, List.singleton_append]

lemma multiBasic?_plain (hc : (isPrintable c = true ∧ c ≠ '\\') ∨ c = '\n')
    (hquote : c = '"' → ¬ ['"', '"'] <+: cs) :
    multiBasic? false (c :: cs) = prepend c (multiBasic? false cs) := by
  have hslash : c ≠ '\\' := by
    rintro rfl
    simp at hc
  have hreturn : c ≠ '\r' := by
    rintro rfl
    revert hc
    decide
  rw [multiBasic?, if_pos hc]
  · rintro t rfl rfl
    exact hquote rfl ⟨t, rfl⟩
  all_goals simp [hslash, hreturn]

lemma multiBasic?_escape {t : List Char} (h : Escape c t) (cs : Text) :
    multiBasic? false (t ++ cs) = prepend c (multiBasic? false cs) := by
  cases h with
  | short h =>
    have hmem := mem_of_shortEscape? h
    simp only [List.mem_cons, List.not_mem_nil, or_false] at hmem
    rcases hmem with rfl | rfl | rfl | rfl | rfl | rfl | rfl <;>
      simp [multiBasic?, h, isLineRest, skipSpace, isSpace, newline?]
  | number h => simp [multiBasic?, h]

lemma multiBasic?_piece {t : List Char} (h : Piece true c t) (cs : Text) :
    multiBasic? false (t ++ cs) = prepend c (multiBasic? false cs) := by
  cases h with
  | escape h => exact multiBasic?_escape h cs
  | plain printable quote slash =>
    exact multiBasic?_plain (.inl ⟨printable, slash⟩) fun h => absurd h quote
  | line h => exact multiBasic?_plain (.inr rfl) (by simp)

lemma readsQuotes_multiBasic : ReadsQuotes '"' (multiBasic? false) where
  closes cs := by rw [multiBasic?]
  quote cs h := multiBasic?_plain (.inl (by decide)) fun _ => h

lemma multiBasic?_basicBody (hk : k ≤ 2) (cs : List Char) (hrest : rest.head? ≠ some '"') :
    multiBasic? false
        (List.replicate k '"' ++ ((basicBody true k cs).toList ++ '"' :: '"' :: '"' :: rest)) =
      some (List.replicate k '"' ++ cs, rest) := by
  induction cs generalizing k with
  | nil => simpa [basicBody] using readsQuotes_multiBasic.append_closing hk hrest
  | cons c cs ih =>
    rcases basicBody_cons true k c cs with ⟨-, rfl, hpending, hbody⟩ | ⟨t, ht, hbody⟩
    · rw [hbody, List.cons_append, replicate_append_cons, ih hpending, replicate_append_cons]
    · obtain ⟨d, ds, rfl, hquote, -, -⟩ := ht.head?_ne
      rw [hbody, List.append_assoc, readsQuotes_multiBasic.append hk (by simpa using hquote),
        multiBasic?_piece ht]
      have hmore := ih (k := 0) (by omega)
      rw [List.replicate_zero, List.nil_append, List.nil_append] at hmore
      rw [hmore]
      rfl

lemma multiLiteral?_plain (hc : isPrintable c = true ∨ c = '\n')
    (hquote : c = '\'' → ¬ ['\'', '\''] <+: cs) :
    multiLiteral? (c :: cs) = prepend c (multiLiteral? cs) := by
  rw [multiLiteral?, if_pos hc]
  · rintro t rfl rfl
    exact hquote rfl ⟨t, rfl⟩
  · rintro t rfl rfl
    revert hc
    decide

lemma readsQuotes_multiLiteral : ReadsQuotes '\'' multiLiteral? where
  closes cs := by rw [multiLiteral?]
  quote cs h := multiLiteral?_plain (.inl (by decide)) fun _ => h

lemma le_longestRun (q : Char) (k : ℕ) (cs : List Char) : k ≤ longestRun q k cs := by
  induction cs generalizing k with
  | nil => exact le_rfl
  | cons c cs ih =>
    rw [longestRun]
    split
    · exact (Nat.le_succ k).trans (ih (k + 1))
    · exact le_max_left _ _

lemma multiLiteral?_append (hrun : longestRun '\'' k cs ≤ 2)
    (hcs : ∀ c ∈ cs, isPrintable c = true ∨ c = '\n') (hrest : rest.head? ≠ some '\'') :
    multiLiteral? (List.replicate k '\'' ++ (cs ++ '\'' :: '\'' :: '\'' :: rest)) =
      some (List.replicate k '\'' ++ cs, rest) := by
  induction cs generalizing k with
  | nil => rw [List.append_nil]; exact readsQuotes_multiLiteral.append_closing hrun hrest
  | cons c cs ih =>
    obtain ⟨hc, hcs⟩ := List.forall_mem_cons.mp hcs
    rw [longestRun] at hrun
    split at hrun
    · next hquote =>
      rw [hquote, List.cons_append, replicate_append_cons, ih hrun hcs, replicate_append_cons]
    · next hquote =>
      obtain ⟨hk, hrun⟩ := max_le_iff.mp hrun
      have hmore := ih (k := 0) hrun hcs
      rw [List.replicate_zero, List.nil_append, List.nil_append] at hmore
      rw [List.cons_append, readsQuotes_multiLiteral.append hk (by simpa using hquote),
        multiLiteral?_plain hc fun h => absurd h hquote, hmore]
      rfl

/-! ### Any string -/

lemma newline?_eq_none (hline : cs.head? ≠ some '\n') (hreturn : cs.head? ≠ some '\r') :
    newline? cs = none := by
  rcases cs with _ | ⟨c, cs⟩
  · rfl
  · unfold newline?
    split <;> simp_all

/-- The line end after the opening quotes is written if the first line end of the string could be
taken for it. -/
lemma dropFirstNewline_append {body : Text} (hline : '\n' ∉ cs → body.head? ≠ some '\n')
    (hreturn : body.head? ≠ some '\r') :
    dropFirstNewline ((if cs.contains '\n' then "\n" else "").toList ++ body) = body := by
  by_cases hmem : '\n' ∈ cs
  · simp [hmem, dropFirstNewline, newline?]
  · simp [hmem, dropFirstNewline, newline?_eq_none (hline hmem) hreturn]

lemma notMem_of_longestRun_eq_zero (h : longestRun q k cs = 0) : q ∉ cs := by
  induction cs generalizing k with
  | nil => simp
  | cons c cs ih =>
    rw [longestRun] at h
    split at h
    · have hle := le_longestRun q (k + 1) cs
      omega
    · next hne =>
      have hmax := le_max_right k (longestRun q 0 cs)
      exact List.not_mem_cons_of_ne_of_not_mem (Ne.symm hne) (ih (k := 0) (by omega))

lemma isPrintable_of_not_coded (h : (!cs.any needsEscape) = true) :
    ∀ c ∈ cs, isPrintable c = true ∨ c = '\n' := by
  intro c hc
  have hplain : ¬ needsEscape c = true := by
    intro hneeds
    simp [List.any_eq_true.mpr ⟨c, hc, hneeds⟩] at h
  by_cases hline : c = '\n'
  · exact .inr hline
  · exact .inl (isPrintable_of_not_needsEscape hplain hline)

lemma form_literal (h : form cs = .literal) :
    ∀ c ∈ cs, isPrintable c = true ∧ c ≠ '\'' := by
  unfold form at h
  dsimp only at h
  split_ifs at h with hbasic hliteral
  obtain ⟨hcoded, hsingles, hlines⟩ := hliteral
  intro c hc
  have hline : c ≠ '\n' := by
    rintro rfl
    simp [hc] at hlines
  refine ⟨(isPrintable_of_not_coded hcoded c hc).resolve_right hline, ?_⟩
  rintro rfl
  exact notMem_of_longestRun_eq_zero hsingles hc

lemma form_multiLiteral (h : form cs = .multiLiteral) :
    (∀ c ∈ cs, isPrintable c = true ∨ c = '\n') ∧ longestRun '\'' 0 cs ≤ 2 := by
  unfold form at h
  dsimp only at h
  split_ifs at h with hbasic hliteral hmulti hmultiLiteral
  exact ⟨isPrintable_of_not_coded hmultiLiteral.1, hmultiLiteral.2⟩

lemma head?_of_isPrintable (hcs : ∀ c ∈ cs, isPrintable c = true ∨ c = '\n') (rest : Text) :
    (cs ++ '\'' :: rest).head? ≠ some '\r' ∧
      ('\n' ∉ cs → (cs ++ '\'' :: rest).head? ≠ some '\n') := by
  cases cs with
  | nil => simp
  | cons c cs =>
    simp only [List.cons_append, List.head?_cons, ne_eq, Option.some.injEq]
    refine ⟨?_, fun hmem hc => hmem (hc ▸ List.mem_cons_self)⟩
    rcases hcs c List.mem_cons_self with hc | rfl
    · exact ne_return_of_isPrintable hc
    · decide

/-- The body of a basic string does not start with a line end unless the string has one. -/
lemma head?_basicBody (multi : Bool) (cs : List Char) (rest : Text) :
    ((basicBody multi 0 cs).toList ++ '"' :: rest).head? ≠ some '\r' ∧
      ('\n' ∉ cs → ((basicBody multi 0 cs).toList ++ '"' :: rest).head? ≠ some '\n') := by
  cases cs with
  | nil => simp [basicBody]
  | cons c cs =>
    rcases basicBody_cons multi 0 c cs with ⟨rfl, rfl, -, hbody⟩ | ⟨t, ht, hbody⟩
    · simp [hbody]
    · obtain ⟨d, ds, rfl, -, hreturn, hline⟩ := ht.head?_ne
      rw [hbody]
      simp only [List.cons_append, List.head?_cons, ne_eq, Option.some.injEq]
      refine ⟨hreturn, fun hmem hd => hmem ?_⟩
      rw [hline hd]
      exact List.mem_cons_self

lemma string?_double (h : ¬ ['"', '"'] <+: cs) : string? ('"' :: cs) = basic? cs := by
  rw [string?]
  rintro t rfl
  exact h ⟨t, rfl⟩

lemma string?_single (h : ¬ ['\'', '\''] <+: cs) : string? ('\'' :: cs) = literal? cs := by
  rw [string?]
  rintro t rfl
  exact h ⟨t, rfl⟩

lemma string?_basic (cs : List Char) (hrest : rest.head? ≠ some '"') :
    string? ('"' :: ((basicBody false 0 cs).toList ++ '"' :: rest)) = some (cs, rest) := by
  rw [string?_double, basic?_basicBody]
  rintro ⟨t, ht⟩
  cases cs with
  | nil =>
    obtain rfl : '"' :: t = rest := by simpa [basicBody] using ht
    exact hrest rfl
  | cons c cs =>
    rcases basicBody_cons false 0 c cs with ⟨hmulti, -⟩ | ⟨u, hu, hbody⟩
    · cases hmulti
    · obtain ⟨d, ds, rfl, hquote, -, -⟩ := hu.head?_ne
      rw [hbody] at ht
      exact hquote (List.cons.inj ht).1.symm

lemma string?_literal (hcs : ∀ c ∈ cs, isPrintable c = true ∧ c ≠ '\'')
    (hrest : rest.head? ≠ some '\'') :
    string? ('\'' :: (cs ++ '\'' :: rest)) = some (cs, rest) := by
  rw [string?_single, literal?_append hcs]
  rintro ⟨t, ht⟩
  cases cs with
  | nil =>
    obtain rfl : '\'' :: t = rest := by simpa using ht
    exact hrest rfl
  | cons c cs => exact (hcs c List.mem_cons_self).2 (List.cons.inj ht).1.symm

/-- **A string that is written is read back**, whatever comes next but a quote. -/
theorem string?_stringText (s : String) {rest : Text} (hdouble : rest.head? ≠ some '"')
    (hsingle : rest.head? ≠ some '\'') :
    string? ((stringText s).toList ++ rest) = some (s.toList, rest) := by
  unfold stringText
  dsimp only
  cases hform : form s.toList with
  | basic =>
    have hread := string?_basic s.toList hdouble
    simpa using hread
  | literal =>
    have hread := string?_literal (form_literal hform) hsingle
    simpa using hread
  | multiBasic =>
    have hread := multiBasic?_basicBody (k := 0) (by omega) s.toList hdouble
    obtain ⟨hreturn, hline⟩ := head?_basicBody true s.toList ('"' :: '"' :: rest)
    rw [List.replicate_zero, List.nil_append, List.nil_append] at hread
    rw [← hread, ← dropFirstNewline_append hline hreturn]
    simp [string?]
  | multiLiteral =>
    obtain ⟨hcs, hrun⟩ := form_multiLiteral hform
    have hread := multiLiteral?_append (k := 0) hrun hcs hsingle
    obtain ⟨hreturn, hline⟩ := head?_of_isPrintable hcs ('\'' :: '\'' :: rest)
    rw [List.replicate_zero, List.nil_append, List.nil_append] at hread
    rw [← hread, ← dropFirstNewline_append hline hreturn]
    simp [string?]

end ProvenanceRelay.Toml
