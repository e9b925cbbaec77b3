import Mathlib
import ProvenanceRelay.Proofs.JsonText
import ProvenanceRelay.Proofs.TomlLines

/-!
The compact text of a value is read back.

The reader takes a text of one JSON value, with blanks around the tokens. It refuses what no value
here is written with: numbers with a fraction or an exponent, and characters escaped as two halves.
A value is read in front of any rest that does not go on with its last token, and each of its
characters is fuel for one step.
-/

namespace ProvenanceRelay.Json

open Toml (codePoint? digitsValue isDecimal prepend)

/-! ### The reader -/

def isBlank (c : Char) : Bool := c = ' ' || c = '\t' || c = '\n' || c = '\r'

def skip (cs : List Char) : List Char := cs.dropWhile isBlank

/-- What a backslash and one more letter stand for. -/
def letter? (c : Char) : Option Char := if c = '/' then some '/' else Toml.shortEscape? c

/-- The rest of a string up to its closing quote. -/
def stringRest? : List Char → Option (List Char × List Char)
  | [] => none
  | '"' :: cs => some ([], cs)
  | '\\' :: 'u' :: a :: b :: c :: d :: cs =>
    (codePoint? [a, b, c, d]).bind fun x => prepend x (stringRest? cs)
  | '\\' :: e :: cs => (letter? e).bind fun x => prepend x (stringRest? cs)
  | c :: cs => if 0x20 ≤ c.toNat ∧ c ≠ '\\' then prepend c (stringRest? cs) else none

def isTokenChar (c : Char) : Bool := c.isAlphanum || c = '-' || c = '+' || c = '.'

/-- Digits without a superfluous zero in front. -/
def digits? (ds : List Char) : Option ℕ :=
  if ds ≠ [] ∧ ds.all isDecimal ∧ (ds.head? = some '0' → ds = ['0']) then some (digitsValue 10 ds)
  else none

def number? : List Char → Option ℤ
  | '-' :: ds => (digits? ds).map fun n => -(n : ℤ)
  | ds => (digits? ds).map fun n => (n : ℤ)

/-- A value that is neither string, array nor object, from all of its characters. -/
def token? (t : List Char) : Option Json :=
  if t = ['n', 'u', 'l', 'l'] then some .null
  else if t = ['t', 'r', 'u', 'e'] then some (.bool true)
  else if t = ['f', 'a', 'l', 's', 'e'] then some (.bool false)
  else (number? t).map .int

/-- A key and its colon. -/
def key? (cs : List Char) : Option (String × List Char) :=
  match skip cs with
  | '"' :: cs =>
    (stringRest? cs).bind fun (k, cs) =>
      match skip cs with
      | ':' :: cs => some (String.ofList k, cs)
      | _ => none
  | _ => none

section

variable {α : Type} (close : Char) (read : List Char → Option (List α × List Char))

/-- What comes after an opening mark: the closing one, or items. -/
def first? (cs : List Char) : Option (List α × List Char) :=
  match skip cs with
  | [] => none
  | c :: cs => if c = close then some ([], cs) else read (c :: cs)

/-- What comes after an item: the closing mark, or a comma and more of them. -/
def more? (cs : List Char) : Option (List α × List Char) :=
  match skip cs with
  | [] => none
  | c :: cs => if c = close then some ([], cs) else if c = ',' then read cs else none

end

mutual

/-- A value, and the rest of the text. -/
def value? : ℕ → List Char → Option (Json × List Char)
  | 0, _ => none
  | n + 1, cs =>
    match skip cs with
    | '"' :: cs => (stringRest? cs).map fun (s, cs) => (.string (String.ofList s), cs)
    | '[' :: cs => (first? ']' (elements? n) cs).map fun (xs, cs) => (.array xs, cs)
    | '\x7b' :: cs => (first? '\x7d' (members? n) cs).map fun (fs, cs) => (.object fs, cs)
    | cs => (token? (cs.takeWhile isTokenChar)).map fun j => (j, cs.dropWhile isTokenChar)

/-- The elements of an array up to its closing bracket, of which there is at least one. -/
def elements? : ℕ → List Char → Option (List Json × List Char)
  | 0, _ => none
  | n + 1, cs =>
    (value? n cs).bind fun (x, cs) =>
      (more? ']' (elements? n) cs).map fun (xs, cs) => (x :: xs, cs)

/-- The members of an object up to its closing brace, of which there is at least one. -/
def members? : ℕ → List Char → Option (List (String × Json) × List Char)
  | 0, _ => none
  | n + 1, cs =>
    (key? cs).bind fun (k, cs) =>
      (value? n cs).bind fun (v, cs) =>
        (more? '\x7d' (members? n) cs).map fun (fs, cs) => ((k, v) :: fs, cs)

end

/-- The value that the whole text denotes. -/
def read? (s : String) : Option Json :=
  match value? s.toList.length s.toList with
  | some (j, rest) => if skip rest = [] then some j else none
  | none => none

/-! ### Strings -/

variable {c : Char} {cs rest t : List Char} {n : ℕ}

def chars (ts : List String) : List Char := ts.flatMap String.toList

@[simp] lemma chars_nil : chars [] = [] := rfl

@[simp] lemma chars_cons (t : String) (ts : List String) :
    chars (t :: ts) = t.toList ++ chars ts := rfl

@[simp] lemma chars_append (ts us : List String) : chars (ts ++ us) = chars ts ++ chars us :=
  List.flatMap_append

def charText (c : Char) : List Char := (escape? c).elim [c] String.toList

lemma charText_of_isPlain (h : isPlain c) : charText c = [c] := by
  rw [charText, Option.isNone_iff_eq_none.mp h, Option.elim_none]

lemma chars_runs (cs : List Char) : chars (runs cs) = cs.flatMap charText := by
  fun_induction runs cs with
  | case1 => rfl
  | case2 c cs e he ih => rw [chars_cons, ih, List.flatMap_cons, charText, he, Option.elim_some]
  | case3 c cs he ih =>
    have hplain : (cs.takeWhile isPlain).flatMap charText = cs.takeWhile isPlain := by
      have hall : ∀ x ∈ cs.takeWhile isPlain, charText x = [x] := fun x hx =>
        charText_of_isPlain (List.mem_takeWhile_imp hx)
      rw [List.flatMap_congr hall]
      simp
    calc chars (String.ofList (c :: cs.takeWhile isPlain) :: runs (cs.dropWhile isPlain))
        = c :: (cs.takeWhile isPlain ++ (cs.dropWhile isPlain).flatMap charText) := by
          rw [chars_cons, ih, String.toList_ofList, List.cons_append]
      _ = c :: (cs.takeWhile isPlain ++ cs.dropWhile isPlain).flatMap charText := by
          rw [List.flatMap_append, hplain]
      _ = (c :: cs).flatMap charText := by
          rw [List.takeWhile_append_dropWhile, List.flatMap_cons, charText, he]
          rfl

lemma escape_of_escape? {e : String} (h : escape? c = some e) : Toml.Escape c e.toList := by
  have hc : Char.ofNat c.toNat = c := Char.ofNat_toNat c
  unfold escape? at h
  split_ifs at h with hquote hslash hback htab hline hfeed hreturn hcontrol <;>
    rw [← Option.some.inj h]
  · exact hquote ▸ .short rfl
  · exact hslash ▸ .short rfl
  · rw [← hc, hback]
    exact .short rfl
  · rw [← hc, htab]
    exact .short rfl
  · rw [← hc, hline]
    exact .short rfl
  · rw [← hc, hfeed]
    exact .short rfl
  · rw [← hc, hreturn]
    exact .short rfl
  · generalize c.toNat = n at hcontrol hc
    subst hc
    interval_cases n <;> exact .number (by decide)

lemma stringRest?_escape (h : Toml.Escape c t) (cs : List Char) :
    stringRest? (t ++ cs) = prepend c (stringRest? cs) := by
  cases h with
  | short h =>
    have hmem := Toml.mem_of_shortEscape? h
    simp only [List.mem_cons, List.not_mem_nil, or_false] at hmem
    rcases hmem with rfl | rfl | rfl | rfl | rfl | rfl | rfl <;> simp [stringRest?, letter?, h]
  | number h => simp [stringRest?, h]

lemma stringRest?_charText (c : Char) (cs : List Char) :
    stringRest? (charText c ++ cs) = prepend c (stringRest? cs) := by
  unfold charText
  cases he : escape? c with
  | some e => exact stringRest?_escape (escape_of_escape? he) cs
  | none =>
    have hplain : isPlain c := by rw [isPlain, he]; rfl
    have hle := le_of_isPlain hplain
    have hquote : c ≠ '"' := by
      rintro rfl
      cases he
    have hslash : c ≠ '\\' := by
      rintro rfl
      cases he
    show stringRest? (c :: cs) = _
    rw [stringRest?, if_pos ⟨hle, hslash⟩] <;> simp_all

/-- A string is read up to its closing quote. -/
lemma stringRest?_flatMap (cs rest : List Char) :
    stringRest? (cs.flatMap charText ++ '"' :: rest) = some (cs, rest) := by
  induction cs with
  | nil => simp [stringRest?]
  | cons c cs ih =>
    rw [List.flatMap_cons, List.append_assoc, stringRest?_charText, ih]
    rfl

lemma chars_stringPieces (s : String) :
    chars (stringPieces s) = '"' :: (s.toList.flatMap charText ++ ['"']) := by
  rw [stringPieces, chars_cons, chars_append, chars_runs]
  rfl

/-! ### Tokens -/

def Ends (rest : List Char) : Prop := rest.takeWhile isTokenChar = []

lemma skip_cons (h : isBlank c = false) (cs : List Char) : skip (c :: cs) = c :: cs := by
  simp [skip, h]

lemma ne_of_isTokenChar {b : Char} (h : isTokenChar c = true) (hb : isTokenChar b = false) :
    c ≠ b := by
  rintro rfl
  rw [h] at hb
  cases hb

lemma isBlank_of_isTokenChar (h : isTokenChar c = true) : isBlank c = false := by
  simp [isBlank, ne_of_isTokenChar h (b := ' ') rfl, ne_of_isTokenChar h (b := '\t') rfl,
    ne_of_isTokenChar h (b := '\n') rfl, ne_of_isTokenChar h (b := '\r') rfl]

/-- A token that ends is read whole. -/
lemma value?_token {j : Json} (hne : t ≠ []) (ht : ∀ c ∈ t, isTokenChar c = true)
    (htoken : token? t = some j) (hrest : Ends rest) :
    value? (n + 1) (t ++ rest) = some (j, rest) := by
  have htake : (t ++ rest).takeWhile isTokenChar = t := by
    rw [List.takeWhile_append_of_pos ht, hrest, List.append_nil]
  have hdrop : (t ++ rest).dropWhile isTokenChar = rest := by
    have hsplit := List.takeWhile_append_dropWhile (p := isTokenChar) (l := t ++ rest)
    rw [htake] at hsplit
    exact List.append_cancel_left hsplit
  obtain ⟨c, cs, rfl⟩ := List.exists_cons_of_ne_nil hne
  have hc := ht c List.mem_cons_self
  have hskip : skip (c :: cs ++ rest) = c :: cs ++ rest := skip_cons (isBlank_of_isTokenChar hc) _
  rw [value?, hskip]
  split
  · next heq => exact absurd (List.cons.inj heq).1 (ne_of_isTokenChar hc rfl)
  · next heq => exact absurd (List.cons.inj heq).1 (ne_of_isTokenChar hc rfl)
  · next heq => exact absurd (List.cons.inj heq).1 (ne_of_isTokenChar hc rfl)
  · rw [htake, hdrop, htoken]
    rfl

lemma digits?_toDigits (n : ℕ) : digits? (Nat.toDigits 10 n) = some n := by
  have hall : (Nat.toDigits 10 n).all isDecimal = true :=
    List.all_eq_true.mpr Toml.isDecimal_of_mem_toDigits
  have hzero : (Nat.toDigits 10 n).head? = some '0' → Nat.toDigits 10 n = ['0'] := by
    rcases Nat.eq_zero_or_pos n with rfl | hn
    · intro _
      rfl
    · intro hhead
      exact absurd hhead (Toml.head?_toDigits hn)
  rw [digits?, if_pos ⟨Nat.toDigits_ne_nil, hall, hzero⟩,
    Toml.digitsValue_toDigits (by omega) (by omega)]

lemma toList_toString_nat (n : ℕ) : (toString n).toList = Nat.toDigits 10 n := by
  simp [Nat.repr]

lemma toList_toString_negSucc (n : ℕ) :
    (toString (Int.negSucc n)).toList = '-' :: Nat.toDigits 10 (n + 1) := by
  have hsign : toString (Int.negSucc n) = "-" ++ toString (n + 1) := rfl
  rw [hsign, String.toList_append, toList_toString_nat]
  rfl

lemma isTokenChar_of_mem_toDigits : ∀ c ∈ Nat.toDigits 10 n, isTokenChar c = true := by
  intro c hc
  have hdigit := Nat.isDigit_of_mem_toDigits (by omega) (by omega) hc
  simp [isTokenChar, Char.isAlphanum, hdigit]

lemma number?_toDigits (n : ℕ) : number? (Nat.toDigits 10 n) = some (n : ℤ) := by
  unfold number?
  split
  · next ds heq =>
    have hminus : isDecimal '-' = true :=
      Toml.isDecimal_of_mem_toDigits (n := n) '-' (by simp [heq])
    exact absurd hminus (by decide)
  · rw [digits?_toDigits]
    rfl

lemma number?_toString (n : ℤ) : number? (toString n).toList = some n := by
  cases n with
  | ofNat n =>
    show number? (toString n).toList = _
    rw [toList_toString_nat, number?_toDigits]
    rfl
  | negSucc n =>
    rw [toList_toString_negSucc, number?, digits?_toDigits]
    rfl

lemma token?_toString (n : ℤ) :
    (toString n).toList ≠ [] ∧ (∀ c ∈ (toString n).toList, isTokenChar c = true) ∧
      token? (toString n).toList = some (.int n) := by
  have hnumber := number?_toString n
  have hword {w : List Char} (hw : number? w = none) : (toString n).toList ≠ w := by
    rintro heq
    rw [heq, hw] at hnumber
    cases hnumber
  refine ⟨hword rfl, ?_, ?_⟩
  · cases n with
    | ofNat n =>
      show ∀ c ∈ (toString n).toList, _
      rw [toList_toString_nat]
      exact isTokenChar_of_mem_toDigits
    | negSucc n =>
      rw [toList_toString_negSucc, List.forall_mem_cons]
      exact ⟨rfl, isTokenChar_of_mem_toDigits⟩
  · rw [token?, if_neg (hword rfl), if_neg (hword rfl), if_neg (hword rfl), hnumber]
    rfl

/-! ### Values -/

lemma exists_chars_pieces (j : Json) :
    ∃ c cs, chars (pieces j) = c :: cs ∧ isBlank c = false ∧ c ≠ ']' := by
  cases j with
  | null => exact ⟨_, _, rfl, by decide, by decide⟩
  | bool b => cases b <;> exact ⟨_, _, rfl, by decide, by decide⟩
  | int n =>
    obtain ⟨hne, htoken, -⟩ := token?_toString n
    obtain ⟨c, cs, hcs⟩ := List.exists_cons_of_ne_nil hne
    have hc := htoken c (hcs ▸ List.mem_cons_self)
    refine ⟨c, cs, ?_, isBlank_of_isTokenChar hc, ne_of_isTokenChar hc rfl⟩
    rw [pieces, chars_cons, hcs, chars_nil, List.append_nil]
  | string s => exact ⟨_, _, by rw [pieces, chars_stringPieces], by decide, by decide⟩
  | array xs => exact ⟨_, _, by rw [pieces, chars_cons]; rfl, by decide, by decide⟩
  | object fs => exact ⟨_, _, by rw [pieces, chars_cons]; rfl, by decide, by decide⟩

lemma key?_stringPieces (k : String) (rest : List Char) :
    key? (chars (stringPieces k) ++ ':' :: rest) = some (k, rest) := by
  rw [chars_stringPieces, List.cons_append, List.append_assoc, List.singleton_append, key?,
    skip_cons (by decide)]
  simp only [stringRest?_flatMap, Option.bind_some]
  rw [skip_cons (by decide)]
  simp

/-- What follows an element, and what follows a member, starts with no token. -/
lemma ends_moreElementPieces (xs : List Json) (rest : List Char) :
    Ends (chars (moreElementPieces xs) ++ rest) := by
  cases xs <;> simp [moreElementPieces, Ends, isTokenChar]

lemma ends_moreFieldPieces (fs : List (String × Json)) (rest : List Char) :
    Ends (chars (moreFieldPieces fs) ++ rest) := by
  rcases fs with _ | ⟨⟨k, v⟩, fs⟩ <;> simp [moreFieldPieces, Ends, isTokenChar]

lemma value?_string (s : String) (rest : List Char) :
    value? (n + 1) (chars (stringPieces s) ++ rest) = some (.string s, rest) := by
  rw [chars_stringPieces, List.cons_append, List.append_assoc, List.singleton_append, value?,
    skip_cons (by decide)]
  simp [stringRest?_flatMap]

lemma first?_close {α : Type} {close : Char} (h : isBlank close = false)
    (read : List Char → Option (List α × List Char)) (cs : List Char) :
    first? close read (close :: cs) = some ([], cs) := by
  rw [first?, skip_cons h]
  exact if_pos rfl

lemma first?_cons {α : Type} {close : Char} (hc : isBlank c = false) (hclose : c ≠ close)
    (read : List Char → Option (List α × List Char)) (cs : List Char) :
    first? close read (c :: cs) = read (c :: cs) := by
  rw [first?, skip_cons hc]
  exact if_neg hclose

lemma more?_close {α : Type} {close : Char} (h : isBlank close = false)
    (read : List Char → Option (List α × List Char)) (cs : List Char) :
    more? close read (close :: cs) = some ([], cs) := by
  rw [more?, skip_cons h]
  exact if_pos rfl

lemma more?_comma {α : Type} {close : Char} (hclose : ',' ≠ close)
    (read : List Char → Option (List α × List Char)) (cs : List Char) :
    more? close read (',' :: cs) = read cs := by
  rw [more?, skip_cons (by decide)]
  exact (if_neg hclose).trans (if_pos rfl)

lemma value?_bracket (n : ℕ) (cs : List Char) :
    value? (n + 1) ('[' :: cs) =
      (first? ']' (elements? n) cs).map fun (xs, cs) => (.array xs, cs) := by
  rw [value?, skip_cons (by decide)]
  rfl

lemma value?_brace (n : ℕ) (cs : List Char) :
    value? (n + 1) ('\x7b' :: cs) =
      (first? '\x7d' (members? n) cs).map fun (fs, cs) => (.object fs, cs) := by
  rw [value?, skip_cons (by decide)]
  rfl

lemma chars_pieces_ne_nil (j : Json) : chars (pieces j) ≠ [] := by
  obtain ⟨c, cs, hcs, -⟩ := exists_chars_pieces j
  simp [hcs]

/-- Fuel for two parts of a text is enough for one step and then for either of them. -/
lemma exists_fuel {a b : List Char} (ha : a ≠ []) (hb : b ≠ []) (h : (a ++ b).length ≤ n) :
    ∃ m, n = m + 1 ∧ a.length ≤ m ∧ b.length ≤ m := by
  have hapos := List.length_pos_iff.mpr ha
  have hbpos := List.length_pos_iff.mpr hb
  rw [List.length_append] at h
  exact ⟨n - 1, by omega, by omega, by omega⟩

/-- With this fuel, what is written in as many characters is read back. -/
structure ReadsBack (n : ℕ) : Prop where
  value (j : Json) (rest : List Char) (fuel : (chars (pieces j)).length ≤ n) (ends : Ends rest) :
    value? n (chars (pieces j) ++ rest) = some (j, rest)
  elements (x : Json) (xs : List Json) (rest : List Char)
    (fuel : (chars (pieces x ++ moreElementPieces xs)).length ≤ n) :
    elements? n (chars (pieces x ++ moreElementPieces xs) ++ rest) = some (x :: xs, rest)
  members (k : String) (v : Json) (fs : List (String × Json)) (rest : List Char)
    (fuel : (chars (stringPieces k ++ ":" :: (pieces v ++ moreFieldPieces fs))).length ≤ n) :
    members? n (chars (stringPieces k ++ ":" :: (pieces v ++ moreFieldPieces fs)) ++ rest) =
      some ((k, v) :: fs, rest)

namespace ReadsBack

lemma value_succ (h : ReadsBack n) (j : Json) (hn : (chars (pieces j)).length ≤ n + 1)
    (hrest : Ends rest) : value? (n + 1) (chars (pieces j) ++ rest) = some (j, rest) := by
  -- a value without parts is one token, and parts are read with the fuel that is left
  cases j with
  | null =>
    show value? (n + 1) (['n', 'u', 'l', 'l'] ++ rest) = _
    exact value?_token (by simp) (List.all_eq_true.mp rfl) rfl hrest
  | bool b =>
    cases b with
    | true =>
      show value? (n + 1) (['t', 'r', 'u', 'e'] ++ rest) = _
      exact value?_token (by simp) (List.all_eq_true.mp rfl) rfl hrest
    | false =>
      show value? (n + 1) (['f', 'a', 'l', 's', 'e'] ++ rest) = _
      exact value?_token (by simp) (List.all_eq_true.mp rfl) rfl hrest
  | int k =>
    obtain ⟨hne, htoken, hread⟩ := token?_toString k
    rw [pieces, chars_cons, chars_nil, List.append_nil]
    exact value?_token hne htoken hread hrest
  | string s => exact value?_string s rest
  | array xs =>
    cases xs with
    | nil =>
      show value? (n + 1) ('[' :: ']' :: rest) = _
      rw [value?_bracket, first?_close (by decide)]
      rfl
    | cons x xs =>
      rw [pieces, elementPieces, chars_cons, List.length_append, Nat.add_comm] at hn
      have hread := h.elements x xs rest (Nat.le_of_succ_le_succ hn)
      obtain ⟨c, cs, hcs, hblank, hclose⟩ := exists_chars_pieces x
      rw [chars_append, hcs] at hread
      show value? (n + 1) ('[' :: (chars (pieces x ++ moreElementPieces xs) ++ rest)) = _
      rw [chars_append, hcs, value?_bracket, List.cons_append, List.cons_append,
        first?_cons hblank hclose, ← List.cons_append, ← List.cons_append, hread]
      rfl
  | object fs =>
    rcases fs with _ | ⟨⟨k, v⟩, fs⟩
    · show value? (n + 1) ('\x7b' :: '\x7d' :: rest) = _
      rw [value?_brace, first?_close (by decide)]
      rfl
    · rw [pieces, fieldPieces, chars_cons, List.length_append, Nat.add_comm] at hn
      have hread := h.members k v fs rest (Nat.le_of_succ_le_succ hn)
      rw [chars_append, chars_stringPieces] at hread
      show value? (n + 1) ('\x7b' ::
        (chars (stringPieces k ++ ":" :: (pieces v ++ moreFieldPieces fs)) ++ rest)) = _
      rw [chars_append, chars_stringPieces, value?_brace, List.cons_append, List.cons_append,
        first?_cons (by decide) (by decide), ← List.cons_append, ← List.cons_append, hread]
      rfl

lemma elements_succ (h : ReadsBack n) (x : Json) (xs : List Json)
    (hn : (chars (pieces x ++ moreElementPieces xs)).length ≤ n + 1) :
    elements? (n + 1) (chars (pieces x ++ moreElementPieces xs) ++ rest) =
      some (x :: xs, rest) := by
  rw [chars_append] at hn ⊢
  have hne : chars (moreElementPieces xs) ≠ [] := by cases xs <;> simp [moreElementPieces]
  obtain ⟨n, ⟨⟩, hx, hxs⟩ := exists_fuel (chars_pieces_ne_nil x) hne hn
  rw [List.append_assoc, elements?, h.value x _ hx (ends_moreElementPieces xs rest),
    Option.bind_some]
  cases xs with
  | nil =>
    show Option.map _ (more? ']' (elements? n) (']' :: rest)) = _
    rw [more?_close (by decide)]
    rfl
  | cons y ys =>
    show Option.map _ (more? ']' (elements? n)
      (',' :: (chars (pieces y ++ moreElementPieces ys) ++ rest))) = _
    rw [more?_comma (by decide), h.elements y ys rest (Nat.le_of_succ_le hxs)]
    rfl

lemma members_succ (h : ReadsBack n) (k : String) (v : Json) (fs : List (String × Json))
    (hn : (chars (stringPieces k ++ ":" :: (pieces v ++ moreFieldPieces fs))).length ≤ n + 1) :
    members? (n + 1) (chars (stringPieces k ++ ":" :: (pieces v ++ moreFieldPieces fs)) ++ rest) =
      some ((k, v) :: fs, rest) := by
  have hsplit : chars (stringPieces k ++ ":" :: (pieces v ++ moreFieldPieces fs)) =
      (chars (stringPieces k) ++ ':' :: chars (pieces v)) ++ chars (moreFieldPieces fs) := by simp
  have hne : chars (moreFieldPieces fs) ≠ [] := by
    rcases fs with _ | ⟨⟨k', v'⟩, fs⟩ <;> simp [moreFieldPieces]
  rw [hsplit] at hn ⊢
  obtain ⟨n, ⟨⟩, hv, hfs⟩ := exists_fuel (by simp) hne hn
  have hkey := key?_stringPieces k (chars (pieces v) ++ (chars (moreFieldPieces fs) ++ rest))
  have hvalue := h.value v (chars (moreFieldPieces fs) ++ rest)
    (by rw [List.length_append, List.length_cons] at hv; omega) (ends_moreFieldPieces fs rest)
  rw [List.append_assoc, List.append_assoc, List.cons_append, members?, hkey, Option.bind_some]
  dsimp only
  rw [hvalue, Option.bind_some]
  rcases fs with _ | ⟨⟨k', v'⟩, fs⟩
  · show Option.map _ (more? '\x7d' (members? n) ('\x7d' :: rest)) = _
    rw [more?_close (by decide)]
    rfl
  · show Option.map _ (more? '\x7d' (members? n) (',' ::
      (chars (stringPieces k' ++ ":" :: (pieces v' ++ moreFieldPieces fs)) ++ rest))) = _
    rw [more?_comma (by decide), h.members k' v' fs rest (Nat.le_of_succ_le hfs)]
    rfl

end ReadsBack

/-- **What is written is read back**, by induction on the fuel: each step leaves fuel for the
characters that are left. -/
lemma readsBack (n : ℕ) : ReadsBack n := by
  induction n with
  | zero =>
    have hnone {ts : List Char} (hne : ts ≠ []) : ¬ ts.length ≤ 0 := by simpa using hne
    exact
      { value := fun j _ fuel _ => absurd fuel (hnone (chars_pieces_ne_nil j))
        elements := fun x _ _ fuel => absurd fuel (hnone (by simp [chars_pieces_ne_nil]))
        members := fun k _ _ _ fuel => absurd fuel (hnone (by simp)) }
  | succ n ih =>
    exact
      { value := fun j _ fuel ends => ih.value_succ j fuel ends
        elements := fun x xs _ fuel => ih.elements_succ x xs fuel
        members := fun k v fs _ fuel => ih.members_succ k v fs fuel }

/-- **The compact text of a value is read as that value.** -/
theorem read?_compact (j : Json) : read? j.compact = some j := by
  have htext : j.compact.toList = chars (pieces j) := String.toList_join
  have hvalue := (readsBack _).value j [] le_rfl rfl
  rw [List.append_nil] at hvalue
  rw [read?, htext, hvalue]
  rfl

end ProvenanceRelay.Json
