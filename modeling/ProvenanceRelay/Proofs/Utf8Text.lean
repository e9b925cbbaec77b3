import Mathlib
import ProvenanceRelay.Record.Basic

/-!
Text as UTF-8 and back.

The first byte of a character says how many bytes follow it and what the first of them may be, so
what encodes a character is scanned as that character, whatever comes next, and nothing else is. So
bytes are well formed if and only if they encode a text. A text without a zero character has no zero
byte, and is read back from where a zero byte ends it.
-/

namespace ProvenanceRelay.Text.Utf8

/-! ### First bytes -/

lemma lead?_ascii {n : ℕ} (hn : n < 128) :
    lead? (UInt8.ofNat n) = some { bits := n, tails := 0 } := by
  have hb : (UInt8.ofNat n).toNat = n := by
    rw [UInt8.toNat_ofNat']
    omega
  have hlt : UInt8.ofNat n < 0x80 := UInt8.lt_iff_toNat_lt.mpr (by rw [hb]; exact hn)
  rw [lead?, if_pos hlt, hb]

lemma lead?_two {n : ℕ} (hlow : 2 ≤ n) (hhigh : n < 32) :
    lead? (UInt8.ofNat (n + 192)) = some { bits := n, tails := 1 } := by
  interval_cases n <;> rfl

lemma lead?_three {n : ℕ} (hn : n < 16) :
    lead? (UInt8.ofNat (n + 224)) = some {
      bits := n
      tails := 2
      low := if n = 0 then 0xA0 else 0x80
      high := if n = 13 then 0x9F else 0xBF } := by
  interval_cases n <;> rfl

lemma lead?_four {n : ℕ} (hn : n < 5) :
    lead? (UInt8.ofNat (n + 240)) = some {
      bits := n
      tails := 3
      low := if n = 0 then 0x90 else 0x80
      high := if n = 4 then 0x8F else 0xBF } := by
  interval_cases n <;> rfl

/-! ### Characters -/

lemma scan_cons {b : UInt8} {l : Lead} (h : lead? b = some l) (bs : Bytes) :
    scan (b :: bs) = (tails l.tails l.low l.high l.bits bs).1.map Char.ofNat ::
      scan (tails l.tails l.low l.high l.bits bs).2 := by
  rw [scan]
  simp only [h]

/-- A byte that may follow adds its six low bits. -/
lemma tails_cons {k m value : ℕ} {low high : UInt8} (hm : m < 64) (hlow : low.toNat ≤ m + 128)
    (hhigh : m + 128 ≤ high.toNat) (bs : Bytes) :
    tails (k + 1) low high value (UInt8.ofNat (m + 128) :: bs) =
      tails k 0x80 0xBF (value * 64 + m) bs := by
  have hb : (UInt8.ofNat (m + 128)).toNat = m + 128 := by
    rw [UInt8.toNat_ofNat']
    omega
  have hrange : low ≤ UInt8.ofNat (m + 128) ∧ UInt8.ofNat (m + 128) ≤ high := by
    rw [UInt8.le_iff_toNat_le, UInt8.le_iff_toNat_le, hb]
    exact ⟨hlow, hhigh⟩
  rw [tails, if_pos hrange, hb]
  congr 2
  omega

lemma tails_cons_any {k m value : ℕ} (hm : m < 64) (bs : Bytes) :
    tails (k + 1) 0x80 0xBF value (UInt8.ofNat (m + 128) :: bs) =
      tails k 0x80 0xBF (value * 64 + m) bs := by
  have hlow : (0x80 : UInt8).toNat = 128 := rfl
  have hhigh : (0xBF : UInt8).toNat = 191 := rfl
  exact tails_cons hm (by omega) (by omega) bs

/-- A character is scanned as itself, whatever follows. -/
lemma scan_utf8EncodeChar_append (c : Char) (bs : Bytes) :
    scan (String.utf8EncodeChar c ++ bs) = some c :: scan bs := by
  have hvalid : c.toNat < 0xD800 ∨ 0xDFFF < c.toNat ∧ c.toNat < 0x110000 := c.valid
  have hc : Char.ofNat c.toNat = c := Char.ofNat_toNat c
  unfold String.utf8EncodeChar
  change scan ((if c.toNat ≤ 0x7F then _ else _) ++ bs) = _
  simp only [Char.toNat_val]
  generalize c.toNat = v at hvalid hc ⊢
  by_cases h1 : v ≤ 0x7F
  · -- one byte
    rw [if_pos h1, List.singleton_append, scan_cons (lead?_ascii (by omega))]
    simp only [tails, Option.map_some, hc]
  rw [if_neg h1]
  by_cases h2 : v ≤ 0x7FF
  · -- two bytes
    have hv : v / 64 * 64 + v % 64 = v := by omega
    rw [if_pos h2, Nat.mod_eq_of_lt (a := v / 64) (by omega)]
    simp only [List.cons_append, List.nil_append]
    rw [scan_cons (lead?_two (by omega) (by omega))]
    simp only
    rw [tails_cons_any (by omega), tails, hv]
    simp only [Option.map_some, hc]
  rw [if_neg h2]
  by_cases h3 : v ≤ 0xFFFF
  · -- three bytes, of which the second tells short forms and surrogates apart
    have hv : (v / 4096 * 64 + v / 64 % 64) * 64 + v % 64 = v := by omega
    have hlow : (if v / 4096 = 0 then 0xA0 else 0x80 : UInt8).toNat ≤ v / 64 % 64 + 128 := by
      split <;> simp
      omega
    have hhigh : v / 64 % 64 + 128 ≤ (if v / 4096 = 13 then 0x9F else 0xBF : UInt8).toNat := by
      split <;> simp <;> omega
    rw [if_pos h3, Nat.mod_eq_of_lt (a := v / 4096) (by omega)]
    simp only [List.cons_append, List.nil_append]
    rw [scan_cons (lead?_three (by omega))]
    simp only
    rw [tails_cons (by omega) hlow hhigh, tails_cons_any (by omega), tails, hv]
    simp only [Option.map_some, hc]
  · -- four bytes, of which the second tells short forms and numbers that are too large apart
    have hv : ((v / 262144 * 64 + v / 4096 % 64) * 64 + v / 64 % 64) * 64 + v % 64 = v := by omega
    have hlow : (if v / 262144 = 0 then 0x90 else 0x80 : UInt8).toNat ≤ v / 4096 % 64 + 128 := by
      split <;> simp
      omega
    have hhigh : v / 4096 % 64 + 128 ≤ (if v / 262144 = 4 then 0x8F else 0xBF : UInt8).toNat := by
      split <;> simp <;> omega
    rw [if_neg h3, Nat.mod_eq_of_lt (a := v / 262144) (by omega)]
    simp only [List.cons_append, List.nil_append]
    rw [scan_cons (lead?_four (by omega))]
    simp only
    rw [tails_cons (by omega) hlow hhigh, tails_cons_any (by omega), tails_cons_any (by omega),
      tails, hv]
    simp only [Option.map_some, hc]

lemma scan_flatMap (cs : List Char) :
    scan (cs.flatMap String.utf8EncodeChar) = cs.map some := by
  induction cs with
  | nil => rw [List.flatMap_nil, scan, List.map_nil]
  | cons c cs ih => rw [List.flatMap_cons, scan_utf8EncodeChar_append, ih, List.map_cons]

/-- What encodes a text is read as that text. -/
theorem decodeLossy_encode (s : String) : decodeLossy (encode s) = s := by
  simp [decodeLossy, encode, scan_flatMap]

lemma mapM_id_eq_some_iff {xs : List (Option Char)} {cs : List Char} :
    xs.mapM id = some cs ↔ xs = cs.map some := by
  induction xs generalizing cs with
  | nil =>
    rw [List.mapM_nil]
    cases cs <;> simp
  | cons x xs ih =>
    simp only [List.mapM_cons, id, Option.bind_eq_bind, Option.bind_eq_some_iff, ih]
    constructor
    · rintro ⟨c, rfl, cs, rfl, h⟩
      rw [← Option.some.inj h]
      rfl
    · intro h
      cases cs with
      | nil => cases h
      | cons c cs =>
        obtain ⟨rfl, rfl⟩ := List.cons.inj h
        exact ⟨c, rfl, cs, rfl, rfl⟩

lemma decode?_encode (s : String) : decode? (encode s) = some s := by
  have hall : (s.toList.map some).mapM id = some s.toList := mapM_id_eq_some_iff.mpr rfl
  rw [decode?, encode, scan_flatMap, hall, Option.map_some, String.ofList_toList]

/-! ### Well-formed bytes -/

/-- A character begins with one of four kinds of bytes. -/
lemma lead?_cases {b : UInt8} {l : Lead} (h : lead? b = some l) :
    (∃ n < 128, b = UInt8.ofNat n) ∨ (∃ n, 2 ≤ n ∧ n < 32 ∧ b = UInt8.ofNat (n + 192)) ∨
      (∃ n < 16, b = UInt8.ofNat (n + 224)) ∨ ∃ n < 5, b = UInt8.ofNat (n + 240) := by
  have hself {n k : ℕ} (hn : b.toNat = n + k) : b = UInt8.ofNat (n + k) := by
    rw [← hn, UInt8.ofNat_toNat]
  have hrange : b.toNat < 128 ∨ 194 ≤ b.toNat ∧ b.toNat ≤ 244 := by
    unfold lead? at h
    simp only [UInt8.lt_iff_toNat_lt, ← UInt8.toNat_inj, UInt8.reduceToNat] at h
    split_ifs at h <;> omega
  rcases hrange with hascii | ⟨hlow, hhigh⟩
  · exact .inl ⟨b.toNat, hascii, UInt8.ofNat_toNat.symm⟩
  rcases lt_or_ge b.toNat 224 with h2 | h2
  · exact .inr (.inl ⟨b.toNat - 192, by omega, by omega, hself (by omega)⟩)
  rcases lt_or_ge b.toNat 240 with h3 | h3
  · exact .inr (.inr (.inl ⟨b.toNat - 224, by omega, hself (by omega)⟩))
  · exact .inr (.inr (.inr ⟨b.toNat - 240, by omega, hself (by omega)⟩))

lemma exists_of_tails {k value v : ℕ} {low high : UInt8} {bs : Bytes} (hlow : 128 ≤ low.toNat)
    (hhigh : high.toNat ≤ 191) (h : (tails (k + 1) low high value bs).1 = some v) :
    ∃ m rest, m < 64 ∧ low.toNat ≤ m + 128 ∧ m + 128 ≤ high.toNat ∧
      bs = UInt8.ofNat (m + 128) :: rest ∧
      tails (k + 1) low high value bs = tails k 0x80 0xBF (value * 64 + m) rest := by
  cases bs with
  | nil => simp [tails] at h
  | cons b bs =>
    rw [tails] at h
    split at h
    · next hrange =>
      simp only [UInt8.le_iff_toNat_le] at hrange
      have hb : b = UInt8.ofNat (b.toNat - 128 + 128) := by
        rw [Nat.sub_add_cancel (by omega), UInt8.ofNat_toNat]
      refine ⟨b.toNat - 128, bs, by omega, by omega, by omega, by rw [← hb], ?_⟩
      rw [hb, tails_cons (by omega) (by omega) (by omega), ← hb]
    · cases h

lemma exists_of_tails_any {k value v : ℕ} {bs : Bytes}
    (h : (tails (k + 1) 0x80 0xBF value bs).1 = some v) :
    ∃ m rest, m < 64 ∧ bs = UInt8.ofNat (m + 128) :: rest ∧
      tails (k + 1) 0x80 0xBF value bs = tails k 0x80 0xBF (value * 64 + m) rest := by
  obtain ⟨m, rest, hm, -, -, hbs, htails⟩ := exists_of_tails (by decide) (by decide) h
  exact ⟨m, rest, hm, hbs, htails⟩

lemma utf8EncodeChar_ofNat {v : ℕ} (hv : v < 0xD800 ∨ 0xDFFF < v ∧ v < 0x110000) :
    String.utf8EncodeChar (Char.ofNat v) =
      if v ≤ 0x7F then [UInt8.ofNat v]
      else if v ≤ 0x7FF then [UInt8.ofNat (v / 64 % 32 + 192), UInt8.ofNat (v % 64 + 128)]
      else if v ≤ 0xFFFF then
        [UInt8.ofNat (v / 4096 % 16 + 224), UInt8.ofNat (v / 64 % 64 + 128),
          UInt8.ofNat (v % 64 + 128)]
      else
        [UInt8.ofNat (v / 262144 % 8 + 240), UInt8.ofNat (v / 4096 % 64 + 128),
          UInt8.ofNat (v / 64 % 64 + 128), UInt8.ofNat (v % 64 + 128)] := by
  have hnat : (Char.ofNat v).toNat = v := by
    rw [Char.toNat_ofNat, if_pos hv]
  unfold String.utf8EncodeChar
  simp only [Char.toNat_val, hnat]

lemma utf8EncodeChar_two {n m : ℕ} (hlow : 2 ≤ n) (hn : n < 32) (hm : m < 64) :
    String.utf8EncodeChar (Char.ofNat (n * 64 + m)) =
      [UInt8.ofNat (n + 192), UInt8.ofNat (m + 128)] := by
  have h1 : (n * 64 + m) / 64 % 32 = n := by omega
  have h2 : (n * 64 + m) % 64 = m := by omega
  rw [utf8EncodeChar_ofNat (by omega), if_neg (by omega), if_pos (by omega), h1, h2]

lemma utf8EncodeChar_three {n m₁ m₂ : ℕ} (hn : n < 16) (hm₁ : m₁ < 64) (hm₂ : m₂ < 64)
    (hfirst : n = 0 → 32 ≤ m₁) (hgap : n = 13 → m₁ < 32) :
    String.utf8EncodeChar (Char.ofNat ((n * 64 + m₁) * 64 + m₂)) =
      [UInt8.ofNat (n + 224), UInt8.ofNat (m₁ + 128), UInt8.ofNat (m₂ + 128)] := by
  have h1 : ((n * 64 + m₁) * 64 + m₂) / 4096 % 16 = n := by omega
  have h2 : ((n * 64 + m₁) * 64 + m₂) / 64 % 64 = m₁ := by omega
  have h3 : ((n * 64 + m₁) * 64 + m₂) % 64 = m₂ := by omega
  rw [utf8EncodeChar_ofNat (by omega), if_neg (by omega), if_neg (by omega), if_pos (by omega), h1,
    h2, h3]

lemma utf8EncodeChar_four {n m₁ m₂ m₃ : ℕ} (hn : n < 5) (hm₁ : m₁ < 64) (hm₂ : m₂ < 64)
    (hm₃ : m₃ < 64) (hfirst : n = 0 → 16 ≤ m₁) (hlast : n = 4 → m₁ < 16) :
    String.utf8EncodeChar (Char.ofNat (((n * 64 + m₁) * 64 + m₂) * 64 + m₃)) =
      [UInt8.ofNat (n + 240), UInt8.ofNat (m₁ + 128), UInt8.ofNat (m₂ + 128),
        UInt8.ofNat (m₃ + 128)] := by
  have h1 : (((n * 64 + m₁) * 64 + m₂) * 64 + m₃) / 262144 % 8 = n := by omega
  have h2 : (((n * 64 + m₁) * 64 + m₂) * 64 + m₃) / 4096 % 64 = m₁ := by omega
  have h3 : (((n * 64 + m₁) * 64 + m₂) * 64 + m₃) / 64 % 64 = m₂ := by omega
  have h4 : (((n * 64 + m₁) * 64 + m₂) * 64 + m₃) % 64 = m₃ := by omega
  rw [utf8EncodeChar_ofNat (by omega), if_neg (by omega), if_neg (by omega), if_neg (by omega), h1,
    h2, h3, h4]

/-- What is scanned as a character is what encodes it. -/
lemma eq_of_scan_eq_cons {bs : Bytes} {c : Char} {xs : List (Option Char)}
    (h : scan bs = some c :: xs) :
    ∃ rest, bs = String.utf8EncodeChar c ++ rest ∧ scan rest = xs := by
  cases bs with
  | nil => simp [scan] at h
  | cons b bs =>
    cases hlead : lead? b with
    | none => simp [scan, hlead] at h
    | some l =>
      rw [scan_cons hlead, List.cons.injEq, Option.map_eq_some_iff] at h
      obtain ⟨⟨v, hv, rfl⟩, rfl⟩ := h
      -- the bytes that follow the first one are read one by one
      rcases lead?_cases hlead with ⟨n, hn, rfl⟩ | ⟨n, hlow, hn, rfl⟩ | ⟨n, hn, rfl⟩ | ⟨n, hn, rfl⟩
      · -- one byte
        rw [lead?_ascii hn, Option.some.injEq] at hlead
        subst hlead
        obtain rfl : n = v := by simpa [tails] using hv
        refine ⟨bs, ?_, by simp [tails]⟩
        rw [utf8EncodeChar_ofNat (by omega), if_pos (by omega), List.singleton_append]
      · -- two bytes
        rw [lead?_two hlow hn, Option.some.injEq] at hlead
        subst hlead
        obtain ⟨m, rest, hm, rfl, htails⟩ := exists_of_tails_any hv
        rw [htails] at hv ⊢
        obtain rfl : n * 64 + m = v := by simpa [tails] using hv
        exact ⟨rest, by rw [utf8EncodeChar_two hlow hn hm]; rfl, by simp [tails]⟩
      · -- three bytes
        rw [lead?_three hn, Option.some.injEq] at hlead
        subst hlead
        obtain ⟨m₁, bs₁, hm₁, hlow, hhigh, rfl, htails⟩ :=
          exists_of_tails (by dsimp only; split <;> decide) (by dsimp only; split <;> decide) hv
        rw [htails] at hv ⊢
        obtain ⟨m₂, rest, hm₂, rfl, htails⟩ := exists_of_tails_any hv
        rw [htails] at hv ⊢
        obtain rfl : (n * 64 + m₁) * 64 + m₂ = v := by simpa [tails] using hv
        -- it is no short form, and no surrogate
        have hfirst : n = 0 → 32 ≤ m₁ := by
          rintro rfl
          have hbound : 160 ≤ m₁ + 128 := hlow
          omega
        have hgap : n = 13 → m₁ < 32 := by
          rintro rfl
          have hbound : m₁ + 128 ≤ 159 := hhigh
          omega
        exact ⟨rest, by rw [utf8EncodeChar_three hn hm₁ hm₂ hfirst hgap]; rfl, by simp [tails]⟩
      · -- four bytes
        rw [lead?_four hn, Option.some.injEq] at hlead
        subst hlead
        obtain ⟨m₁, bs₁, hm₁, hlow, hhigh, rfl, htails⟩ :=
          exists_of_tails (by dsimp only; split <;> decide) (by dsimp only; split <;> decide) hv
        rw [htails] at hv ⊢
        obtain ⟨m₂, bs₂, hm₂, rfl, htails⟩ := exists_of_tails_any hv
        rw [htails] at hv ⊢
        obtain ⟨m₃, rest, hm₃, rfl, htails⟩ := exists_of_tails_any hv
        rw [htails] at hv ⊢
        obtain rfl : ((n * 64 + m₁) * 64 + m₂) * 64 + m₃ = v := by simpa [tails] using hv
        -- it is no short form, and no number that is too large
        have hfirst : n = 0 → 16 ≤ m₁ := by
          rintro rfl
          have hbound : 144 ≤ m₁ + 128 := hlow
          omega
        have hlast : n = 4 → m₁ < 16 := by
          rintro rfl
          have hbound : m₁ + 128 ≤ 143 := hhigh
          omega
        exact ⟨rest, by rw [utf8EncodeChar_four hn hm₁ hm₂ hm₃ hfirst hlast]; rfl,
          by simp [tails]⟩

lemma eq_flatMap_of_scan {bs : Bytes} {cs : List Char} (h : scan bs = cs.map some) :
    bs = cs.flatMap String.utf8EncodeChar := by
  induction cs generalizing bs with
  | nil =>
    cases bs with
    | nil => rfl
    | cons b bs =>
      rw [scan] at h
      split at h <;> cases h
  | cons c cs ih =>
    obtain ⟨rest, rfl, hrest⟩ := eq_of_scan_eq_cons h
    rw [List.flatMap_cons, ← ih hrest]

/-- Bytes are well formed if and only if they encode a text, and are read as that text. -/
theorem decode?_eq_some_iff {bs : Bytes} {s : String} : decode? bs = some s ↔ bs = encode s := by
  constructor
  · intro h
    obtain ⟨cs, hcs, rfl⟩ := Option.map_eq_some_iff.mp h
    rw [encode, String.toList_ofList]
    exact eq_flatMap_of_scan (mapM_id_eq_some_iff.mp hcs)
  · rintro rfl
    exact decode?_encode s

/-! ### Zero bytes -/

lemma ne_zero_of_mem_utf8EncodeChar {c : Char} (hc : c ≠ '\x00') :
    ∀ b ∈ String.utf8EncodeChar c, b ≠ 0 := by
  have hvalid : c.toNat < 0xD800 ∨ 0xDFFF < c.toNat ∧ c.toNat < 0x110000 := c.valid
  have hpos : c.toNat ≠ 0 := fun h => hc (by rw [← Char.ofNat_toNat c, h])
  have hbyte {n : ℕ} (hn : n % 256 ≠ 0) : UInt8.ofNat n ≠ 0 := by
    rw [ne_eq, ← UInt8.toNat_inj, UInt8.toNat_ofNat']
    exact hn
  unfold String.utf8EncodeChar
  simp only [Char.toNat_val]
  split_ifs <;>
    simp only [List.forall_mem_cons, List.not_mem_nil, false_implies, implies_true, and_true]
  · exact hbyte (by omega)
  · exact ⟨hbyte (by omega), hbyte (by omega)⟩
  · exact ⟨hbyte (by omega), hbyte (by omega), hbyte (by omega)⟩
  · exact ⟨hbyte (by omega), hbyte (by omega), hbyte (by omega), hbyte (by omega)⟩

variable {s : String} (hs : '\x00' ∉ s.toList)

include hs

lemma ne_zero_of_mem_encode : ∀ b ∈ encode s, b ≠ 0 := by
  intro b hb
  obtain ⟨c, hc, hb⟩ := List.mem_flatMap.mp hb
  exact ne_zero_of_mem_utf8EncodeChar (fun h => hs (h ▸ hc)) b hb

lemma untilZero_encode : untilZero (encode s) = encode s :=
  List.takeWhile_eq_self_iff.mpr fun b hb => decide_eq_true (ne_zero_of_mem_encode hs b hb)

/-- A zero byte ends a text that has none itself. -/
lemma untilZero_encode_append (bs : Bytes) : untilZero (encode s ++ 0 :: bs) = encode s := by
  have hzero : untilZero (0 :: bs) = [] := rfl
  rw [untilZero, List.takeWhile_append_of_pos
    fun b hb => decide_eq_true (ne_zero_of_mem_encode hs b hb)]
  exact (congrArg (encode s ++ ·) hzero).trans (List.append_nil _)

end ProvenanceRelay.Text.Utf8
