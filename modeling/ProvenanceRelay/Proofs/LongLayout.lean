import Mathlib
import ProvenanceRelay.Proofs.DecodeFaults
import ProvenanceRelay.Proofs.Inscription
import ProvenanceRelay.Proofs.Utf8Text

/-!
Long records as they are laid out.

Texts and contents stand behind their length, names up to a zero byte, and socket addresses in the
form of the system. What is stored is read back, whatever stands behind a text or a content, behind
the zero byte of a name, behind an address, or in a place of the record that is not used.
-/

namespace ProvenanceRelay

open Text Net

/-! ### Texts that a zero byte ends -/

/-- The text has no zero in it and fits in `room` bytes. -/
structure FitsIn (s : String) (room : ℕ) : Prop where
  nonzero : '\x00' ∉ s.toList
  length_le : (Utf8.encode s).length ≤ room

/-- The bytes of the text, with a zero byte behind them if there is room for it. -/
def zeroEndedBytes (room : ℕ) (s : String) : Bytes :=
  Utf8.encode s ++ if (Utf8.encode s).length < room then [0] else []

lemma FitsIn.length_zeroEndedBytes_le {s : String} {room : ℕ} (h : FitsIn s room) :
    (zeroEndedBytes room s).length ≤ room := by
  have := h.length_le
  unfold zeroEndedBytes
  split <;> simp <;> omega

lemma Chunk.zeroEnded_sub {w offset room : ℕ} {c : Chunk w} {s : String} {h : offset + room ≤ w}
    (hs : FitsIn s room) (hheld : c.bytes.Holds ⟨offset, zeroEndedBytes room s⟩) :
    (c.sub offset room h).zeroEnded = s := by
  have htake : (c.sub offset room h).bytes.take (zeroEndedBytes room s).length =
      zeroEndedBytes room s := by
    show ((c.bytes.drop offset).take room).take _ = _
    rw [List.take_take, min_eq_left hs.length_zeroEndedBytes_le]
    exact hheld
  -- what stands behind the text, in the place that is kept for it
  obtain ⟨rest, hbytes⟩ : zeroEndedBytes room s <+: (c.sub offset room h).bytes :=
    htake ▸ List.take_prefix _ _
  have hlength := congrArg List.length hbytes
  rw [(c.sub offset room h).length_eq] at hlength
  rw [Chunk.zeroEnded, ← hbytes, zeroEndedBytes]
  split
  · next hroom =>
    rw [List.append_assoc, List.singleton_append, Utf8.untilZero_encode_append hs.nonzero,
      Utf8.decodeLossy_encode]
  · next hroom =>
    have hrest : rest = [] := by
      rw [zeroEndedBytes, if_neg hroom] at hlength
      simp only [List.append_nil, List.length_append] at hlength
      exact List.eq_nil_of_length_eq_zero (by omega)
    rw [hrest, List.append_nil, List.append_nil, Utf8.untilZero_encode hs.nonzero,
      Utf8.decodeLossy_encode]

/-! ### Socket addresses -/

/-- The bytes of a socket address in the form of the system: its family, the port, the flow label
and the address in network order, the scope, and any bytes behind. -/
inductive SocketBytes : UInt16 → SocketAddress → Bytes → Prop
  | v4 (ip : Ipv4) (port : UInt16) (more : Bytes) :
      SocketBytes 2 (.v4 ip port)
        ((Datum.u16 2).bytes ++ (Datum.netU16 port).bytes ++ (Datum.netU32 ip).bytes ++ more)
  | v6 (ip : Ipv6) (port : UInt16) (flow scope : UInt32) (more : Bytes) :
      SocketBytes 10 (.v6 ip port flow scope)
        ((Datum.u16 10).bytes ++ (Datum.netU16 port).bytes ++ (Datum.netU32 flow).bytes ++
          Bytes.toBE 16 ip.toNat ++ (Datum.u32 scope).bytes ++ more)

lemma SocketBytes.socketAddress_eq {family : UInt16} {address : SocketAddress} {w : ℕ}
    {raw : Chunk w} (h : SocketBytes family address raw.bytes) :
    socketAddress raw = (family, some address) := by
  have hlength := raw.length_eq
  generalize hbytes : raw.bytes = bs at h hlength
  cases h with
  | v4 ip port more =>
    simp only [List.length_append, Datum.length_bytes, Datum.width] at hlength
    have hw : 8 ≤ w := by omega
    have hfamily : raw.bytes.Holds ⟨0, (Datum.u16 familyV4).bytes⟩ :=
      hbytes ▸ (Bytes.holds_self _).append.append.append
    have hport : raw.bytes.Holds ⟨2, (Datum.netU16 port).bytes⟩ :=
      hbytes ▸ (Bytes.holds_append (by rfl)).append.append
    have hip : raw.bytes.Holds ⟨4, (Datum.netU32 ip).bytes⟩ :=
      hbytes ▸ (Bytes.holds_append (by rfl)).append
    rw [socketAddress, dif_neg (by omega)]
    simp only [Chunk.u16_sub hfamily, if_true, dif_pos hw, Chunk.netU16_sub hport,
      Chunk.netU32_sub hip]
    rfl
  | v6 ip port flow scope more =>
    simp only [List.length_append, Datum.length_bytes, Datum.width, Bytes.length_toBE] at hlength
    have hw : 28 ≤ w := by omega
    have hfamily : raw.bytes.Holds ⟨0, (Datum.u16 familyV6).bytes⟩ :=
      hbytes ▸ (Bytes.holds_self _).append.append.append.append.append
    have hport : raw.bytes.Holds ⟨2, (Datum.netU16 port).bytes⟩ :=
      hbytes ▸ (Bytes.holds_append (by rfl)).append.append.append.append
    have hflow : raw.bytes.Holds ⟨4, (Datum.netU32 flow).bytes⟩ :=
      hbytes ▸ (Bytes.holds_append (by rfl)).append.append.append
    have hip : raw.bytes.Holds ⟨8, Bytes.toBE 16 ip.toNat⟩ :=
      hbytes ▸ (Bytes.holds_append (by rfl)).append.append
    have hscope : raw.bytes.Holds ⟨24, (Datum.u32 scope).bytes⟩ :=
      hbytes ▸ (Bytes.holds_append (by rfl)).append
    have hnumber : BitVec.ofNat 128 (Bytes.ofBE (raw.sub 8 16 (by omega)).bytes) = ip := by
      rw [Chunk.ofBE_sub ip.isLt hip, BitVec.ofNat_toNat, BitVec.setWidth_eq]
    have hne : familyV6 ≠ familyV4 := by decide
    rw [socketAddress, dif_neg (by omega)]
    simp only [Chunk.u16_sub hfamily, if_neg hne, if_true, dif_pos hw, Chunk.netU16_sub hport,
      Chunk.netU32_sub hflow, hnumber, Chunk.u32_sub hscope]
    rfl

/-! ### Stored lengths -/

lemma Area.capacity_le (a : Area) : a.capacity ≤ 4096 := by cases a <;> decide

section

variable {w place offset : ℕ} {c : Chunk w}

lemma Chunk.toNat_u16_sub {n : ℕ} {h : place + 2 ≤ w} (hn : n < 2 ^ 16)
    (hheld : c.bytes.Holds ⟨place, Bytes.toLE 2 n⟩) : (c.sub place 2 h).u16.toNat = n := by
  rw [toNat_u16, ofLE_sub hn hheld]

lemma Chunk.toNat_u32_sub {n : ℕ} {h : place + 4 ≤ w} (hn : n < 2 ^ 32)
    (hheld : c.bytes.Holds ⟨place, Bytes.toLE 4 n⟩) : (c.sub place 4 h).u32.toNat = n := by
  rw [toNat_u32, ofLE_sub hn hheld]

end

namespace Record

variable {r : Record .long} {a : Area} {place offset : ℕ}

lemma exists_area_eq_ok {bs : Bytes} (h : offset + a.capacity ≤ Shape.long.size)
    (hroom : bs.length ≤ a.capacity) (hheld : r.bytes.Holds ⟨offset, bs⟩) :
    ∃ c : Chunk bs.length, r.area a offset bs.length h = .ok ⟨bs.length, c⟩ ∧ c.bytes = bs := by
  rw [area, Area.check, dif_pos hroom]
  exact ⟨_, rfl, Chunk.bytes_sub rfl hheld⟩

lemma sizedText_eq_ok {s : String} {h : offset + a.capacity ≤ Shape.long.size}
    {hplace : place + 2 ≤ Shape.long.size} (hroom : (Utf8.encode s).length ≤ a.capacity)
    (hlength : r.bytes.Holds ⟨place, Bytes.toLE 2 (Utf8.encode s).length⟩)
    (htext : r.bytes.Holds ⟨offset, Utf8.encode s⟩) :
    r.sizedText a offset (r.sub place 2 hplace).u16.toNat h = .ok s := by
  have := a.capacity_le
  obtain ⟨c, hc, hbytes⟩ := exists_area_eq_ok h hroom htext
  rw [Chunk.toNat_u16_sub (by omega) hlength, sizedText, hc]
  exact congrArg Except.ok (by rw [hbytes, Utf8.decodeLossy_encode])

end Record

/-! ### Payloads -/

def DisclosedKind.longKind : DisclosedKind → LongKind
  | entity => .disclosedEntity
  | activity => .disclosedActivity
  | agent => .disclosedAgent

namespace LongPayload

def header : LongPayload → Header
  | string e => e.header
  | path e => e.header
  | address e => e.header
  | xattr e => e.header
  | disclosed n => n.header
  | packetContent e => e.header
  | argument e => e.header
  | machine m => m.header

def longKind : LongPayload → LongKind
  | string _ => .string
  | path _ => .path
  | address _ => .address
  | xattr _ => .xattr
  | disclosed n => n.kind.longKind
  | packetContent _ => .packetContent
  | argument e => if e.environment then .environment else .argument
  | machine _ => .machine

/-- What the payload's record stores behind its header, and where. -/
inductive Stores : LongPayload → List Field → Prop
  | string {e : StringEntry} (hroom : (Utf8.encode e.value).length ≤ 4096) :
      Stores (.string e)
        [⟨64, Bytes.toLE 2 (Utf8.encode e.value).length⟩, ⟨66, Utf8.encode e.value⟩]
  | path {e : PathEntry} (hroom : (Utf8.encode e.name).length ≤ 4096) :
      Stores (.path e)
        [⟨64, Bytes.toLE 2 (Utf8.encode e.name).length⟩, ⟨66, Utf8.encode e.name⟩]
  | address {e : AddressEntry} {address : SocketAddress} {raw : Bytes}
      (haddress : e.address = some address) (hraw : SocketBytes e.family address raw)
      (hroom : raw.length ≤ 128) :
      Stores (.address e) [⟨64, Bytes.toLE 2 raw.length⟩, ⟨66, raw⟩]
  | xattr {e : XattrEntry} (hname : FitsIn e.name 256) (hroom : e.value.length ≤ 2048) :
      Stores (.xattr e)
        [⟨64, zeroEndedBytes 256 e.name⟩, ⟨320, Bytes.toLE 4 e.value.length⟩, ⟨324, e.value⟩,
          ⟨2372, [e.flags]⟩]
  | disclosed {n : DisclosedNode} (hroom : (Utf8.encode n.content).length ≤ 4096) :
      Stores (.disclosed n)
        [⟨64, n.parent.bytes⟩, ⟨96, Bytes.toLE 2 (Utf8.encode n.content).length⟩,
          ⟨98, Utf8.encode n.content⟩]
  | packetContent {e : PacketContent} {truncated : UInt8} (htruncated : e.truncated ↔ truncated ≠ 0)
      (hroom : e.content.length ≤ 2048) :
      Stores (.packetContent e)
        [⟨64, Bytes.toLE 4 e.content.length⟩, ⟨68, [truncated]⟩, ⟨72, e.content⟩]
  | argument {e : Argument} {truncated : UInt8} (htruncated : e.truncated ↔ truncated ≠ 0)
      (hroom : (Utf8.encode e.value).length ≤ 4096) :
      Stores (.argument e)
        [⟨64, Bytes.toLE 2 (Utf8.encode e.value).length⟩, ⟨66, [truncated]⟩,
          ⟨68, Utf8.encode e.value⟩]
  | machine {m : Machine} (hsysname : FitsIn m.sysname 65) (hnodename : FitsIn m.nodename 65)
      (hrelease : FitsIn m.release 65) (hversion : FitsIn m.version 65)
      (hmachine : FitsIn m.machine 65) (hcommit : FitsIn m.commit 40) :
      Stores (.machine m)
        [⟨64, zeroEndedBytes 65 m.sysname⟩, ⟨129, zeroEndedBytes 65 m.nodename⟩,
          ⟨194, zeroEndedBytes 65 m.release⟩, ⟨259, zeroEndedBytes 65 m.version⟩,
          ⟨324, zeroEndedBytes 65 m.machine⟩,
          ⟨389, [m.tracerVersion.1]⟩, ⟨390, [m.tracerVersion.2.1]⟩, ⟨391, [m.tracerVersion.2.2]⟩,
          ⟨392, zeroEndedBytes 40 m.commit⟩]

lemma Stores.inOrder {p : LongPayload} {fs : List Field} (h : p.Stores fs) :
    InOrder Record.headerSize fs Shape.long.size := by
  cases h with
  | disclosed hroom =>
    simp [InOrder, Record.headerSize, Shape.size, Chunk.length_eq]
    omega
  | xattr hname hroom =>
    have := hname.length_zeroEndedBytes_le
    simp [InOrder, Record.headerSize, Shape.size]
    omega
  | machine hsysname hnodename hrelease hversion hmachine hcommit =>
    have := hsysname.length_zeroEndedBytes_le
    have := hnodename.length_zeroEndedBytes_le
    have := hrelease.length_zeroEndedBytes_le
    have := hversion.length_zeroEndedBytes_le
    have := hmachine.length_zeroEndedBytes_le
    have := hcommit.length_zeroEndedBytes_le
    simp [InOrder, Record.headerSize, Shape.size]
    omega
  | _ =>
    simp [InOrder, Record.headerSize, Shape.size]
    omega

/-- Each value is read from its place, and each text and content behind its length. -/
lemma Stores.longPayload_eq {p : LongPayload} {fs : List Field} (h : p.Stores fs)
    {r : Record .long} (hheader : r.header = p.header) (hheld : ∀ f ∈ fs, r.bytes.Holds f) :
    r.longPayload p.longKind = .ok p := by
  -- each kind has its own places: where there is a length, it comes first
  cases h <;> simp only [List.forall_mem_cons] at hheld
  case string e hroom =>
    obtain ⟨hlength, htext, -⟩ := hheld
    rw [longKind, Record.longPayload, Record.stringEntry,
      Record.sizedText_eq_ok hroom hlength htext, hheader]
    rfl
  case path e hroom =>
    obtain ⟨hlength, htext, -⟩ := hheld
    rw [longKind, Record.longPayload, Record.pathEntry,
      Record.sizedText_eq_ok hroom hlength htext, hheader]
    rfl
  case address e address raw haddress hraw hroom =>
    obtain ⟨hlength, hrawBytes, -⟩ := hheld
    obtain ⟨c, hc, hbytes⟩ := Record.exists_area_eq_ok (a := .address) (by decide) hroom hrawBytes
    have hread : socketAddress c = (e.family, e.address) := by
      rw [haddress]
      exact SocketBytes.socketAddress_eq (by rw [hbytes]; exact hraw)
    rw [longKind, Record.longPayload, Record.addressEntry, Chunk.toNat_u16_sub (by omega) hlength,
      hc, hheader]
    show Except.ok (LongPayload.address ⟨e.header, (socketAddress c).1, (socketAddress c).2⟩) = _
    rw [hread]
  case xattr e hname hroom =>
    obtain ⟨hnameBytes, hlength, hvalue, hflags, -⟩ := hheld
    obtain ⟨c, hc, hbytes⟩ := Record.exists_area_eq_ok (a := .xattrValue) (by decide) hroom hvalue
    rw [longKind, Record.longPayload, Record.xattrEntry, Chunk.toNat_u32_sub (by omega) hlength,
      hc, Chunk.zeroEnded_sub hname hnameBytes, Chunk.byte_sub hflags, hheader]
    show Except.ok (LongPayload.xattr ⟨e.header, e.name, c.bytes, e.flags⟩) = _
    rw [hbytes]
  case disclosed n hroom =>
    obtain ⟨hparent, hlength, htext, -⟩ := hheld
    have hkind : r.longPayload n.kind.longKind = .disclosed <$> r.disclosedNode n.kind := by
      cases n.kind <;> rfl
    rw [longKind, hkind, Record.disclosedNode, Record.sizedText_eq_ok hroom hlength htext, hheader,
      Chunk.identifier_sub hparent]
    rfl
  case packetContent e truncated htruncated hroom =>
    obtain ⟨hlength, htruncatedByte, hcontent, -⟩ := hheld
    obtain ⟨c, hc, hbytes⟩ :=
      Record.exists_area_eq_ok (a := .packetContent) (by decide) hroom hcontent
    rw [longKind, Record.longPayload, Record.packetContent, Chunk.toNat_u32_sub (by omega) hlength,
      hc, hheader, Chunk.flag_sub htruncated htruncatedByte]
    show Except.ok (LongPayload.packetContent ⟨e.header, c.bytes, e.truncated⟩) = _
    rw [hbytes]
  case argument e truncated htruncated hroom =>
    obtain ⟨hlength, htruncatedByte, htext, -⟩ := hheld
    have hkind : r.longPayload (if e.environment then .environment else .argument) =
        .argument <$> r.argument e.environment := by
      cases e.environment <;> rfl
    rw [longKind, hkind, Record.argument, Record.sizedText_eq_ok hroom hlength htext, hheader,
      Chunk.flag_sub htruncated htruncatedByte]
    rfl
  case machine m hsysname hnodename hrelease hversion hmachine hcommit =>
    obtain ⟨hsysnameBytes, hnodenameBytes, hreleaseBytes, hversionBytes, hmachineBytes, hmajor,
      hminor, hpatch, hcommitBytes, -⟩ := hheld
    rw [longKind, Record.longPayload, Record.machine, hheader,
      Chunk.zeroEnded_sub hsysname hsysnameBytes, Chunk.zeroEnded_sub hnodename hnodenameBytes,
      Chunk.zeroEnded_sub hrelease hreleaseBytes, Chunk.zeroEnded_sub hversion hversionBytes,
      Chunk.zeroEnded_sub hmachine hmachineBytes, Chunk.byte_sub hmajor, Chunk.byte_sub hminor,
      Chunk.byte_sub hpatch, Chunk.zeroEnded_sub hcommit hcommitBytes]
    rfl

/-- **What is laid out in a long record is read back**: a payload with the tag of its kind can be
put into any record, and whatever else that record holds, the payload is what is read. -/
theorem read_of_stored_fields {p : LongPayload} {fs : List Field} (hstores : p.Stores fs)
    (htag : p.longKind.tag = p.header.identifier.tag) (filler : Record .long) :
    ∃ r : Record .long,
      (Draft.mk filler.bytes).putAll (p.header.fields ++ fs) = some ⟨r.bytes⟩ ∧
        AnyRecord.read .long r.bytes = .ok (.long p) := by
  obtain ⟨r, hput, hheader, hheld⟩ := Record.exists_putAll hstores.inOrder p.header filler
  have hkind : Record.classifyLong r.tag = .ok p.longKind := by
    rwa [r.tag_eq, hheader, Record.classifyLong_eq_ok_iff]
  refine ⟨r, hput, ?_⟩
  rw [AnyRecord.read_long, Record.decodeLong, hkind]
  exact congrArg (Payload.long <$> ·) (hstores.longPayload_eq hheader hheld)

/-- An attribute whose name is shorter than its place, and has a letter of two bytes. -/
def userAttribute : XattrEntry where
  header := { identifier := .new LongKind.xattr.tag 7, flags := 1, epoch := 2 }
  name := "user.né"
  value := [1, 0, 0xFF]
  flags := 3

theorem read_of_stored_fields_userAttribute :
    let p : LongPayload := .xattr userAttribute
    let fs : List Field :=
      [⟨64, zeroEndedBytes 256 "user.né"⟩, ⟨320, Bytes.toLE 4 3⟩, ⟨324, [1, 0, 0xFF]⟩, ⟨2372, [3]⟩]
    let filler : Record .long := ⟨List.replicate 4352 0xFF, List.length_replicate⟩
    p.Stores fs ∧ p.longKind.tag = p.header.identifier.tag ∧
      ∃ r : Record .long,
        (Draft.mk filler.bytes).putAll (p.header.fields ++ fs) = some ⟨r.bytes⟩ ∧
          AnyRecord.read .long r.bytes = .ok (.long p) := by
  intro p fs filler
  have hstores : p.Stores fs := .xattr ⟨by decide, by decide⟩ (by decide)
  have htag : p.longKind.tag = p.header.identifier.tag := by decide
  exact ⟨hstores, htag, read_of_stored_fields hstores htag filler⟩

end LongPayload

end ProvenanceRelay
