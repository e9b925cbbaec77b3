import Mathlib
import ProvenanceRelay.Record.Draft

/-!
Values put in place in a record.

A field is a stretch of bytes at an offset. Fields that follow one another can be put into a record
whatever it held before; it holds all of them then, and a read at the place of one of them gives
the value that was put there.
-/

namespace ProvenanceRelay

/-! ### Numbers -/

namespace Bytes

lemma ofLE_toLE {w n : ℕ} (h : n < 256 ^ w) : ofLE (toLE w n) = n := by
  induction w generalizing n with
  | zero => simp at h; simp [h]
  | succ w ih =>
    have hdiv : n / 256 < 256 ^ w := by
      rw [Nat.pow_succ] at h
      omega
    have hlow : (UInt8.ofNat (n % 256)).toNat = n % 256 := by simp
    rw [toLE_succ, ofLE_cons, ih hdiv, hlow]
    omega

lemma ofBE_toBE {w n : ℕ} (h : n < 256 ^ w) : ofBE (toBE w n) = n := by
  simp [ofBE, toBE, ofLE_toLE h]

end Bytes

/-! ### Fields -/

/-- Bytes and the offset at which they stand. -/
structure Field where
  offset : ℕ
  bytes : Bytes

def Bytes.Holds (bs : Bytes) (f : Field) : Prop :=
  (bs.drop f.offset).take f.bytes.length = f.bytes

namespace Bytes

lemma holds_self (bs : Bytes) : bs.Holds ⟨0, bs⟩ := List.take_length

lemma holds_append {front bs : Bytes} {offset : ℕ} (h : front.length = offset) :
    (front ++ bs).Holds ⟨offset, bs⟩ := by
  rw [Holds, List.drop_left' h]
  exact List.take_length

lemma Holds.append {bs more : Bytes} {f : Field} (h : bs.Holds f) : (bs ++ more).Holds f := by
  have hlength := congrArg List.length h
  rw [List.length_take, List.length_drop] at hlength
  have hmore : (more.drop (f.offset - bs.length)).take (f.bytes.length - (bs.length - f.offset)) =
      [] := by
    rw [show f.bytes.length - (bs.length - f.offset) = 0 by omega, List.take_zero]
  rw [Holds, List.drop_append, List.take_append, List.length_drop, hmore, List.append_nil]
  exact h

end Bytes

/-- Puts the fields in place one after another. -/
def Draft.putAll (d : Draft) (fs : List Field) : Option Draft :=
  fs.foldlM (fun d f => d.put f.offset f.bytes) d

/-- From `a` on the fields follow one another, and end before `z`. -/
def InOrder : ℕ → List Field → ℕ → Prop
  | a, [], z => a ≤ z
  | a, f :: fs, z => a ≤ f.offset ∧ InOrder (f.offset + f.bytes.length) fs z

namespace InOrder

variable {a b z : ℕ} {fs gs : List Field}

lemma le (h : InOrder a fs z) : a ≤ z := by
  induction fs generalizing a with
  | nil => exact h
  | cons f fs ih =>
    have := ih h.2
    have := h.1
    omega

lemma append (hf : InOrder a fs b) (hg : InOrder b gs z) : InOrder a (fs ++ gs) z := by
  induction fs generalizing a with
  | nil =>
    have hab : a ≤ b := hf
    cases gs with
    | nil => exact hab.trans hg
    | cons g gs => exact ⟨hab.trans hg.1, hg.2⟩
  | cons f fs ih => exact ⟨hf.1, ih hf.2⟩

end InOrder

/-- Fields in order can be put in place: what stands before them stays, and each of them is held. -/
lemma Draft.exists_putAll {fs : List Field} {a : ℕ} {d : Draft} (h : InOrder a fs d.bytes.length) :
    ∃ e, d.putAll fs = some e ∧ e.bytes.length = d.bytes.length ∧
      e.bytes.take a = d.bytes.take a ∧ ∀ f ∈ fs, e.bytes.Holds f := by
  induction fs generalizing a d with
  | nil => exact ⟨d, rfl, rfl, rfl, nofun⟩
  | cons f fs ih =>
    obtain ⟨ha, hrest⟩ := h
    have hfits := hrest.le
    obtain ⟨d', hput⟩ : ∃ d', d.put f.offset f.bytes = some d' := ⟨_, if_pos hfits⟩
    have hlength := length_put hput
    have htake : d'.bytes.take (f.offset + f.bytes.length) = d.bytes.take f.offset ++ f.bytes := by
      rw [put, if_pos hfits] at hput
      cases hput
      rw [List.take_append_of_le_length (by simp; omega), List.take_of_length_le (by simp)]
    rw [← hlength] at hrest
    obtain ⟨e, he, helength, hetake, hheld⟩ := ih hrest
    rw [htake] at hetake
    refine ⟨e, ?_, helength.trans hlength, ?_, List.forall_mem_cons.mpr ⟨?_, hheld⟩⟩
    · rw [putAll, List.foldlM_cons, hput]
      exact he
    · have hbefore := congrArg (List.take a) hetake
      rwa [List.take_take, min_eq_left (by omega), List.take_append_of_le_length (by simp; omega),
        List.take_take, min_eq_left ha] at hbefore
    · rw [Bytes.Holds, List.take_drop, hetake]
      exact List.drop_left' (by simp; omega)

/-! ### Values of fixed width -/

/-- A value as a record stores it; numbers are in network order where their names say so. -/
inductive Datum where
  | byte (b : UInt8)
  | u16 (n : UInt16)
  | u32 (n : UInt32)
  | u64 (n : UInt64)
  | i64 (n : Int64)
  | netU16 (n : UInt16)
  | netU32 (n : UInt32)
  | identifier (i : Identifier)

namespace Datum

def width : Datum → ℕ
  | byte _ => 1
  | u16 _ => 2
  | u32 _ => 4
  | u64 _ => 8
  | i64 _ => 8
  | netU16 _ => 2
  | netU32 _ => 4
  | identifier _ => 32

/-- What the offset is a multiple of. -/
def align (d : Datum) : ℕ := min d.width 8

lemma align_pos (d : Datum) : 0 < d.align := by cases d <;> simp [align, width]

/-- The bytes of the value; a negative number is stored in two's complement. -/
def bytes : Datum → Bytes
  | byte b => [b]
  | u16 n => Bytes.toLE 2 n.toNat
  | u32 n => Bytes.toLE 4 n.toNat
  | u64 n => Bytes.toLE 8 n.toNat
  | i64 n => Bytes.toLE 8 (n.toInt % 2 ^ 64).toNat
  | netU16 n => Bytes.toBE 2 n.toNat
  | netU32 n => Bytes.toBE 4 n.toNat
  | identifier i => i.bytes

lemma length_bytes (d : Datum) : d.bytes.length = d.width := by
  cases d with
  | identifier i => exact i.length_eq
  | _ => simp [bytes, width]

end Datum

/-- The first multiple of `n` from `a` on. -/
def alignTo (a n : ℕ) : ℕ := (a + n - 1) / n * n

lemma le_alignTo {a n : ℕ} (hn : 0 < n) : a ≤ alignTo a n := by
  have hdiv := Nat.div_add_mod' (a + n - 1) n
  have hmod := Nat.mod_lt (a + n - 1) hn
  unfold alignTo
  omega

/-- The values one after another from `a` on, each at the next offset that suits it. -/
def layOut : ℕ → List Datum → List Field
  | _, [] => []
  | a, d :: ds => ⟨alignTo a d.align, d.bytes⟩ :: layOut (alignTo a d.align + d.width) ds

def layOutEnd : ℕ → List Datum → ℕ
  | a, [] => a
  | a, d :: ds => layOutEnd (alignTo a d.align + d.width) ds

lemma inOrder_layOut {a z : ℕ} {ds : List Datum} (h : layOutEnd a ds ≤ z) :
    InOrder a (layOut a ds) z := by
  induction ds generalizing a with
  | nil => exact h
  | cons d ds ih =>
    refine ⟨le_alignTo d.align_pos, ?_⟩
    show InOrder (alignTo a d.align + d.bytes.length) (layOut (alignTo a d.align + d.width) ds) z
    rw [d.length_bytes]
    exact ih h

/-! ### Reading -/

namespace Chunk

variable {w offset : ℕ} {c : Chunk w}

lemma bytes_sub {bs : Bytes} {width : ℕ} {h : offset + width ≤ w} (hlength : bs.length = width)
    (hheld : c.bytes.Holds ⟨offset, bs⟩) : (c.sub offset width h).bytes = bs := by
  subst hlength
  exact hheld

lemma byte_sub {b : UInt8} {h : offset + 1 ≤ w}
    (hheld : c.bytes.Holds ⟨offset, (Datum.byte b).bytes⟩) : (c.sub offset 1 h).byte = b := by
  rw [byte, bytes_sub (by exact Datum.length_bytes _) hheld]
  simp [Datum.bytes]

lemma flag_sub {flag : Bool} {b : UInt8} {h : offset + 1 ≤ w} (hflag : flag ↔ b ≠ 0)
    (hheld : c.bytes.Holds ⟨offset, (Datum.byte b).bytes⟩) :
    decide ((c.sub offset 1 h).byte ≠ 0) = flag := by
  rw [byte_sub hheld]
  exact Bool.eq_iff_iff.mpr (decide_eq_true_iff.trans hflag.symm)

lemma ofLE_sub {width n : ℕ} {h : offset + width ≤ w} (hn : n < 256 ^ width)
    (hheld : c.bytes.Holds ⟨offset, Bytes.toLE width n⟩) :
    Bytes.ofLE (c.sub offset width h).bytes = n := by
  rw [bytes_sub (Bytes.length_toLE width n) hheld, Bytes.ofLE_toLE hn]

lemma ofBE_sub {width n : ℕ} {h : offset + width ≤ w} (hn : n < 256 ^ width)
    (hheld : c.bytes.Holds ⟨offset, Bytes.toBE width n⟩) :
    Bytes.ofBE (c.sub offset width h).bytes = n := by
  rw [bytes_sub (Bytes.length_toBE width n) hheld, Bytes.ofBE_toBE hn]

lemma u16_sub {n : UInt16} {h : offset + 2 ≤ w}
    (hheld : c.bytes.Holds ⟨offset, (Datum.u16 n).bytes⟩) : (c.sub offset 2 h).u16 = n := by
  rw [u16, ofLE_sub n.toNat_lt hheld, UInt16.ofNat_toNat]

lemma u32_sub {n : UInt32} {h : offset + 4 ≤ w}
    (hheld : c.bytes.Holds ⟨offset, (Datum.u32 n).bytes⟩) : (c.sub offset 4 h).u32 = n := by
  rw [u32, ofLE_sub n.toNat_lt hheld, UInt32.ofNat_toNat]

lemma u64_sub {n : UInt64} {h : offset + 8 ≤ w}
    (hheld : c.bytes.Holds ⟨offset, (Datum.u64 n).bytes⟩) : (c.sub offset 8 h).u64 = n := by
  rw [u64, ofLE_sub n.toNat_lt hheld, UInt64.ofNat_toNat]

lemma i64_sub {n : Int64} {h : offset + 8 ≤ w}
    (hheld : c.bytes.Holds ⟨offset, (Datum.i64 n).bytes⟩) : (c.sub offset 8 h).i64 = n := by
  have hn : (n.toInt % 2 ^ 64).toNat = n.toUInt64.toNat := by
    rw [← Int64.toNat_toBitVec, ← BitVec.ofInt_toInt (x := n.toBitVec), BitVec.toNat_ofInt]
    rfl
  rw [Datum.bytes, hn] at hheld
  rw [i64, u64_sub hheld, Int64.toInt64_toUInt64]

lemma netU16_sub {n : UInt16} {h : offset + 2 ≤ w}
    (hheld : c.bytes.Holds ⟨offset, (Datum.netU16 n).bytes⟩) : (c.sub offset 2 h).netU16 = n := by
  rw [netU16, ofBE_sub n.toNat_lt hheld, UInt16.ofNat_toNat]

lemma netU32_sub {n : UInt32} {h : offset + 4 ≤ w}
    (hheld : c.bytes.Holds ⟨offset, (Datum.netU32 n).bytes⟩) : (c.sub offset 4 h).netU32 = n := by
  rw [netU32, ofBE_sub n.toNat_lt hheld, UInt32.ofNat_toNat]

lemma identifier_sub {i : Identifier} {h : offset + 32 ≤ w}
    (hheld : c.bytes.Holds ⟨offset, (Datum.identifier i).bytes⟩) :
    Identifier.mk (c.sub offset 32 h) = i := by
  obtain ⟨bs, hlength⟩ := i
  have hbytes : (c.sub offset 32 h).bytes = bs := bytes_sub hlength hheld
  subst hbytes
  rfl

end Chunk

/-! ### Headers -/

/-- What every record starts with, as it is laid out. -/
def Header.fields (h : Header) : List Field :=
  layOut 0 [.identifier h.identifier, .u32 h.flags, .u64 h.epoch]

lemma Header.inOrder_fields (h : Header) : InOrder 0 h.fields Record.headerSize :=
  inOrder_layOut (by simp only [layOutEnd, alignTo, Datum.align, Datum.width]; decide)

lemma Record.header_eq {shape : Shape} {r : Record shape} {h : Header}
    (hheld : ∀ f ∈ h.fields, r.bytes.Holds f) : r.header = h := by
  obtain ⟨identifier, flags, epoch⟩ := h
  simp only [Header.fields, layOut, alignTo, Datum.align, Datum.width,
    List.forall_mem_cons] at hheld
  obtain ⟨hidentifier, hflags, hepoch, -⟩ := hheld
  rw [header, Header.mk.injEq]
  exact ⟨Chunk.identifier_sub hidentifier, Chunk.u32_sub hflags, Chunk.u64_sub hepoch⟩

lemma Record.tag_eq {shape : Shape} (r : Record shape) : r.tag = r.header.identifier.tag := by
  have hbytes : (r.head 0 8).bytes = (r.identifier.sub 0 8).bytes := by
    show (r.bytes.drop 0).take 8 = (((r.bytes.drop 0).take 32).drop 0).take 8
    rw [List.drop_zero, List.drop_zero, List.take_take, min_eq_left (by decide)]
  rw [tag, Chunk.u64, hbytes]
  rfl

lemma Record.exists_putAll {shape : Shape} {fs : List Field}
    (hfs : InOrder headerSize fs shape.size) (h : Header) (filler : Record shape) :
    ∃ r : Record shape, (Draft.mk filler.bytes).putAll (h.fields ++ fs) = some ⟨r.bytes⟩ ∧
      r.header = h ∧ ∀ f ∈ fs, r.bytes.Holds f := by
  have horder : InOrder 0 (h.fields ++ fs) (Draft.mk filler.bytes).bytes.length := by
    rw [filler.length_eq]
    exact h.inOrder_fields.append hfs
  obtain ⟨d, hput, hlength, -, hheld⟩ := Draft.exists_putAll horder
  rw [List.forall_mem_append] at hheld
  let r : Record shape := ⟨d.bytes, hlength.trans filler.length_eq⟩
  have hheader : ∀ f ∈ h.fields, r.bytes.Holds f := hheld.1
  exact ⟨r, hput, header_eq hheader, hheld.2⟩

end ProvenanceRelay
