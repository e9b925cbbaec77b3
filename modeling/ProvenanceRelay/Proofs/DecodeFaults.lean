import Mathlib
import ProvenanceRelay.Proofs.GuardedReading
import ProvenanceRelay.Proofs.Tags

/-!
What a slice of a channel is refused for.

A fault is told by the bytes alone: the number of them, the bits of the tag, and the length that a
kind of long record stores. Decoding refuses a slice for its fault, and reads every slice that has
none.
-/

namespace ProvenanceRelay

namespace Bytes

/-- The number in the `width` bytes from `offset` on, least significant byte first. -/
def numberAt (bs : Bytes) (offset width : ℕ) : ℕ := ofLE ((bs.drop offset).take width)

def tag (bs : Bytes) : Tag := UInt64.ofNat (bs.numberAt 0 8)

end Bytes

/-- A stored length: where it stands, what it measures, and the most it may be. -/
structure Measure where
  offset : ℕ
  width : ℕ
  area : Area
  limit : ℕ
  limit_eq : area.capacity = limit

def LongKind.measure? : LongKind → Option Measure
  | string => some ⟨64, 2, .string, 4096, rfl⟩
  | path => some ⟨64, 2, .path, 4096, rfl⟩
  | address => some ⟨64, 2, .address, 128, rfl⟩
  | xattr => some ⟨320, 4, .xattrValue, 2048, rfl⟩
  | disclosedEntity => some ⟨96, 2, .disclosedContent, 4096, rfl⟩
  | disclosedActivity => some ⟨96, 2, .disclosedContent, 4096, rfl⟩
  | disclosedAgent => some ⟨96, 2, .disclosedContent, 4096, rfl⟩
  | packetContent => some ⟨64, 4, .packetContent, 2048, rfl⟩
  | argument => some ⟨64, 2, .argument, 4096, rfl⟩
  | environment => some ⟨64, 2, .argument, 4096, rfl⟩
  | machine => none

/-- The faults of a slice, each with the error that tells it. -/
inductive Fault (bs : Bytes) : Shape → DecodeError → Prop
  | shortSize (h : bs.length ≠ 256) : Fault bs .short (.wrongSize 256 bs.length)
  | longSize (h : bs.length ≠ 4352) : Fault bs .long (.wrongSize 4352 bs.length)
  | relation (hsize : bs.length = 256) (htop : bs.tag.bit 63)
      (h : ¬ ∃! i, (54 ≤ i ∧ i ≤ 59) ∧ bs.tag.bit i) : Fault bs .short (.unknownRelation bs.tag)
  | node (hsize : bs.length = 256) (htop : ¬ bs.tag.bit 63) (h : ¬ bs.tag.IsNode) :
      Fault bs .short (.unknownNode bs.tag)
  | long (hsize : bs.length = 4352) (h : ¬ bs.tag.IsLong) : Fault bs .long (.unknownLong bs.tag)
  | length (hsize : bs.length = 4352) {k : LongKind} (hk : k.tag = bs.tag) {m : Measure}
      (hm : k.measure? = some m) (h : m.limit < bs.numberAt m.offset m.width) :
      Fault bs .long (.tooLong m.area (bs.numberAt m.offset m.width))

/-! ### Refusals of long records -/

lemma bind_eq_error_iff {ε α β : Type} {x : Except ε α} {f : α → Except ε β} {e : ε}
    (h : ∀ a, ∃ b, f a = .ok b) : x >>= f = .error e ↔ x = .error e := by
  cases x with
  | error e => simp [Bind.bind, Except.bind]
  | ok a =>
    obtain ⟨b, hb⟩ := h a
    constructor
    · intro hf
      cases hb.symm.trans hf
    · intro hx
      cases hx

lemma map_eq_error_iff {ε α β : Type} {x : Except ε α} {f : α → β} {e : ε} :
    f <$> x = .error e ↔ x = .error e := by
  cases x with
  | error e => simp
  | ok a => exact ⟨nofun, nofun⟩

lemma Bytes.ofLE_lt (bs : Bytes) : Bytes.ofLE bs < 256 ^ bs.length := by
  induction bs with
  | nil => simp
  | cons b bs ih =>
    have hb := b.toNat_lt
    simp only [Bytes.ofLE_cons, List.length_cons, Nat.pow_succ]
    omega

lemma Chunk.toNat_u16 (c : Chunk 2) : c.u16.toNat = Bytes.ofLE c.bytes :=
  UInt16.toNat_ofNat_of_lt' (by simpa [c.length_eq] using Bytes.ofLE_lt c.bytes)

lemma Chunk.toNat_u32 (c : Chunk 4) : c.u32.toNat = Bytes.ofLE c.bytes :=
  UInt32.toNat_ofNat_of_lt' (by simpa [c.length_eq] using Bytes.ofLE_lt c.bytes)

namespace Record

variable (r : Record .long) {e : DecodeError}

lemma area_eq_error_iff {a : Area} {offset length : ℕ}
    {h : offset + a.capacity ≤ Shape.long.size} :
    r.area a offset length h = .error e ↔ a.capacity < length ∧ e = .tooLong a length := by
  by_cases hlen : length ≤ a.capacity
  · have hfits : ¬ a.capacity < length := by omega
    simp [area, Area.check, hlen, hfits]
  · have hlong : a.capacity < length := by omega
    simp only [area, Area.check, dif_neg hlen, hlong, true_and]
    exact ⟨fun h => by cases h; rfl, fun h => by rw [h]; rfl⟩

lemma sizedText_eq_error_iff {a : Area} {offset length : ℕ}
    {h : offset + a.capacity ≤ Shape.long.size} :
    r.sizedText a offset length h = .error e ↔ a.capacity < length ∧ e = .tooLong a length :=
  (bind_eq_error_iff fun _ => ⟨_, rfl⟩).trans r.area_eq_error_iff

lemma longPayload_eq_error_iff {k : LongKind} :
    r.longPayload k = .error e ↔ ∃ m, k.measure? = some m ∧
      m.limit < r.bytes.numberAt m.offset m.width ∧
      e = .tooLong m.area (r.bytes.numberAt m.offset m.width) := by
  -- what a kind with a measure is refused for
  have hmeasure {m : Measure} (hm : k.measure? = some m) {n : ℕ}
      (hn : n = r.bytes.numberAt m.offset m.width)
      (h : r.longPayload k = .error e ↔ m.area.capacity < n ∧ e = .tooLong m.area n) :
      r.longPayload k = .error e ↔ ∃ m, k.measure? = some m ∧
        m.limit < r.bytes.numberAt m.offset m.width ∧
        e = .tooLong m.area (r.bytes.numberAt m.offset m.width) := by
    rw [h, m.limit_eq, hn]
    exact ⟨fun h => ⟨m, hm, h⟩, fun ⟨m', hm', h⟩ => by cases hm.symm.trans hm'; exact h⟩
  cases k
  case machine => exact ⟨nofun, nofun⟩
  case address =>
    exact hmeasure rfl (Chunk.toNat_u16 _) <| map_eq_error_iff.trans <|
      (bind_eq_error_iff fun _ => ⟨_, rfl⟩).trans r.area_eq_error_iff
  case xattr | packetContent =>
    exact hmeasure rfl (Chunk.toNat_u32 _) <| map_eq_error_iff.trans <|
      (bind_eq_error_iff fun _ => ⟨_, rfl⟩).trans r.area_eq_error_iff
  -- the kinds that carry text
  all_goals
    exact hmeasure rfl (Chunk.toNat_u16 _) <| map_eq_error_iff.trans <|
      (bind_eq_error_iff fun _ => ⟨_, rfl⟩).trans r.sizedText_eq_error_iff

end Record

/-! ### Slices -/

namespace AnyRecord

lemma read_short_eq_error_iff (r : Record .short) {e : DecodeError} :
    read .short r.bytes = .error e ↔ Record.classifyShort r.tag = .error e := by
  rw [read_short, Record.decodeShort, map_eq_error_iff, map_eq_error_iff]

lemma read_long_eq_error_iff (r : Record .long) {e : DecodeError} :
    read .long r.bytes = .error e ↔ Record.classifyLong r.tag = .error e ∨
      ∃ k, Record.classifyLong r.tag = .ok k ∧ r.longPayload k = .error e := by
  rw [read_long, map_eq_error_iff, Record.decodeLong]
  cases hk : Record.classifyLong r.tag with
  | error d => simp [Bind.bind, Except.bind]
  | ok k => simp [Bind.bind, Except.bind]

lemma read_eq_error_iff {shape : Shape} {bs : Bytes} {e : DecodeError} :
    read shape bs = .error e ↔ Fault bs shape e := by
  by_cases hsize : bs.length = shape.size
  · obtain ⟨r, rfl⟩ : ∃ r : Record shape, r.bytes = bs := ⟨⟨bs, hsize⟩, rfl⟩
    have htag : r.tag = r.bytes.tag := rfl
    cases shape with
    | short =>
      rw [read_short_eq_error_iff, Record.classifyShort_eq_error_iff, htag]
      constructor
      · rintro (⟨htop, h, rfl⟩ | ⟨htop, h, rfl⟩)
        · exact .relation hsize htop h
        · exact .node hsize htop h
      · rintro (h | _ | ⟨-, htop, h⟩ | ⟨-, htop, h⟩ | _ | _)
        · exact absurd hsize h
        · exact .inl ⟨htop, h, rfl⟩
        · exact .inr ⟨htop, h, rfl⟩
    | long =>
      rw [read_long_eq_error_iff, Record.classifyLong_eq_error_iff, htag]
      simp only [Record.classifyLong_eq_ok_iff, Record.longPayload_eq_error_iff]
      constructor
      · rintro (⟨h, rfl⟩ | ⟨k, hk, m, hm, h, rfl⟩)
        · exact .long hsize h
        · exact .length hsize hk hm h
      · rintro (_ | h | _ | _ | ⟨-, h⟩ | ⟨-, hk, hm, h⟩)
        · exact absurd hsize h
        · exact .inl ⟨h, rfl⟩
        · exact .inr ⟨_, hk, _, hm, h, rfl⟩
  · -- a slice of another size has no other fault
    rw [read_of_size_ne hsize]
    constructor
    · rintro ⟨⟩
      cases shape with
      | short => exact .shortSize hsize
      | long => exact .longSize hsize
    · intro h
      cases h with
      | shortSize _ => rfl
      | longSize _ => rfl
      | relation h => exact absurd h hsize
      | node h => exact absurd h hsize
      | long h => exact absurd h hsize
      | length h => exact absurd h hsize

end AnyRecord

/-- **Decoding never fails but for a fault**: whatever the bytes, all that is read is there, a
slice is refused with an error just if it has the fault that the error tells, and a slice without
a fault is read. -/
theorem Guarded.decode_total (shape : Shape) (bs : Bytes) :
    (Guarded.decode shape bs).run = some (AnyRecord.read shape bs) ∧
      (∀ e, AnyRecord.read shape bs = .error e ↔ Fault bs shape e) ∧
      ((∃ p, AnyRecord.read shape bs = .ok p) ↔ ∀ e, ¬ Fault bs shape e) := by
  refine ⟨by rw [Guarded.decode_eq_given]; rfl, fun e => AnyRecord.read_eq_error_iff, ?_⟩
  simp only [← AnyRecord.read_eq_error_iff]
  cases AnyRecord.read shape bs with
  | error e => simp
  | ok p => simp

end ProvenanceRelay
