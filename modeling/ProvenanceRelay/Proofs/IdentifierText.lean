import Mathlib
import ProvenanceRelay.Proofs.DecodeFaults
import ProvenanceRelay.Proofs.TomlLines

/-!
Numbers between marks are read back.

The text of an identifier is the numbers of its fields with colons between them, that of an address
of the older kind is its bytes with dots between them. No digit is a mark, so the text is cut where
the marks are. An identifier is had again but for its reserved bytes, which its text leaves out.
-/

namespace ProvenanceRelay

open Toml (digitsValue hexDigit?)

/-! ### Marks -/

namespace Text.Numeral

lemma isSome_hexDigit?_of_mem_toDigits {b : ℕ} (hb : 1 < b) (hb' : b ≤ 16) (n : ℕ) :
    ∀ c ∈ Nat.toDigits b n, (hexDigit? c).isSome := by
  have hdigit {d : ℕ} (hd : d < b) : (hexDigit? d.digitChar).isSome := by
    rw [Toml.hexDigit?_digitChar (by omega)]
    rfl
  induction n using Nat.strong_induction_on with
  | _ n ih =>
    by_cases hn : n < b
    · rw [Nat.toDigits_of_lt_base hn, List.forall_mem_singleton]
      exact hdigit hn
    · rw [Nat.toDigits_of_base_le hb (by omega), List.forall_mem_append, List.forall_mem_singleton]
      exact ⟨ih (n / b) (Nat.div_lt_self (by omega) hb), hdigit (Nat.mod_lt n (by omega))⟩

lemma splitOn_intercalate {mark : Char} (hmark : hexDigit? mark = none) {texts : List String}
    (hne : texts ≠ []) (htexts : ∀ t ∈ texts, ∀ c ∈ t.toList, (hexDigit? c).isSome) :
    ((String.singleton mark).intercalate texts).toList.splitOn mark = texts.map String.toList := by
  rw [String.toList_intercalate, String.toList_singleton]
  refine List.splitOn_intercalate mark ?_ (by simpa using hne)
  intro l hl hmem
  obtain ⟨t, ht, rfl⟩ := List.mem_map.mp hl
  have hsome := htexts t ht mark hmem
  rw [hmark] at hsome
  cases hsome

lemma isSome_of_mem_hex (n : ℕ) : ∀ c ∈ (hex n).toList, (hexDigit? c).isSome := by
  rw [hex, String.toList_ofList]
  exact isSome_hexDigit?_of_mem_toDigits (by omega) (by omega) n

lemma isSome_of_mem_decimal (n : ℕ) : ∀ c ∈ (decimal n).toList, (hexDigit? c).isSome := by
  rw [decimal, String.toList_ofList]
  exact isSome_hexDigit?_of_mem_toDigits (by omega) (by omega) n

@[simp] lemma digitsValue_hex (n : ℕ) : digitsValue 16 (hex n).toList = n := by
  rw [hex, String.toList_ofList, Toml.digitsValue_toDigits (by omega) (by omega)]

@[simp] lemma digitsValue_decimal (n : ℕ) : digitsValue 10 (decimal n).toList = n := by
  rw [decimal, String.toList_ofList, Toml.digitsValue_toDigits (by omega) (by omega)]

end Text.Numeral

open Text

/-! ### Identifiers -/

namespace Chunk

variable {w : ℕ}

lemma toNat_u64 (c : Chunk 8) : c.u64.toNat = Bytes.ofLE c.bytes :=
  UInt64.toNat_ofNat_of_lt' (by simpa [c.length_eq] using Bytes.ofLE_lt c.bytes)

lemma toLE_ofLE (c : Chunk w) : Bytes.toLE w (Bytes.ofLE c.bytes) = c.bytes := by
  have h := Bytes.toLE_ofLE c.bytes
  rwa [c.length_eq] at h

end Chunk

namespace Identifier

def unreserved (i : Identifier) : Identifier :=
  ⟨⟨i.bytes.take 28 ++ List.replicate 4 0, by simp [i.length_eq]⟩⟩

def ofText? (s : String) : Option Identifier :=
  match s.toList.splitOn ':' with
  | [tag, id, bootId, machineId, version] =>
    some ⟨⟨Bytes.toLE 8 (digitsValue 16 tag) ++ Bytes.toLE 8 (digitsValue 10 id) ++
      Bytes.toLE 4 (digitsValue 10 bootId) ++ Bytes.toLE 4 (digitsValue 10 machineId) ++
      Bytes.toLE 4 (digitsValue 10 version) ++ List.replicate 4 0, by simp⟩⟩
  | _ => none

/-- The fields of an identifier are its bytes up to the reserved ones. -/
lemma fields_eq_take (i : Identifier) :
    Bytes.toLE 8 i.tag.toNat ++ Bytes.toLE 8 i.id.toNat ++ Bytes.toLE 4 i.bootId.toNat ++
      Bytes.toLE 4 i.machineId.toNat ++ Bytes.toLE 4 i.version.toNat = i.bytes.take 28 := by
  simp only [tag, id, bootId, machineId, version, Chunk.toNat_u64, Chunk.toNat_u32, Chunk.toLE_ofLE]
  simp only [Chunk.sub]
  rw [List.drop_zero, ← List.take_add, ← List.take_add, ← List.take_add, ← List.take_add]

/-- **An identifier is read from its text**, but for its reserved bytes. -/
lemma ofText?_text (i : Identifier) : ofText? i.text = some i.unreserved := by
  have hsplit : i.text.toList.splitOn ':' =
      [(Numeral.hex i.tag.toNat).toList, (Numeral.decimal i.id.toNat).toList,
        (Numeral.decimal i.bootId.toNat).toList, (Numeral.decimal i.machineId.toNat).toList,
        (Numeral.decimal i.version.toNat).toList] := by
    refine Numeral.splitOn_intercalate rfl (by simp) ?_
    simp only [List.mem_cons, List.not_mem_nil, or_false, forall_eq_or_imp, forall_eq]
    exact ⟨Numeral.isSome_of_mem_hex _, Numeral.isSome_of_mem_decimal _,
      Numeral.isSome_of_mem_decimal _, Numeral.isSome_of_mem_decimal _,
      Numeral.isSome_of_mem_decimal _⟩
  simp only [ofText?, hsplit, Numeral.digitsValue_hex, Numeral.digitsValue_decimal, fields_eq_take]
  rfl

end Identifier

/-! ### Addresses -/

namespace Net.Ipv4

def ofText? (s : String) : Option Ipv4 :=
  match s.toList.splitOn '.' with
  | [a, b, c, d] =>
    some (ofBytes (digitsValue 10 a) (digitsValue 10 b) (digitsValue 10 c) (digitsValue 10 d))
  | _ => none

/-- **An address of the older kind is read from its text.** -/
lemma ofText?_text (ip : Ipv4) : ofText? (text ip) = some ip := by
  have hsplit : (text ip).toList.splitOn '.' =
      [(Numeral.decimal (ip.toNat >>> (8 * 3) % 256)).toList,
        (Numeral.decimal (ip.toNat >>> (8 * 2) % 256)).toList,
        (Numeral.decimal (ip.toNat >>> (8 * 1) % 256)).toList,
        (Numeral.decimal (ip.toNat >>> (8 * 0) % 256)).toList] := by
    refine Numeral.splitOn_intercalate rfl (by simp) ?_
    simp only [List.mem_cons, List.not_mem_nil, or_false, forall_eq_or_imp, forall_eq]
    exact ⟨Numeral.isSome_of_mem_decimal _, Numeral.isSome_of_mem_decimal _,
      Numeral.isSome_of_mem_decimal _, Numeral.isSome_of_mem_decimal _⟩
  have hlt := ip.toNat_lt
  have hbytes : ((ip.toNat >>> (8 * 3) % 256 * 256 + ip.toNat >>> (8 * 2) % 256) * 256 +
      ip.toNat >>> (8 * 1) % 256) * 256 + ip.toNat >>> (8 * 0) % 256 = ip.toNat := by
    simp only [Nat.shiftRight_eq_div_pow]
    omega
  simp only [ofText?, hsplit, Numeral.digitsValue_decimal, ofBytes, hbytes, UInt32.ofNat_toNat]

end Net.Ipv4

end ProvenanceRelay
