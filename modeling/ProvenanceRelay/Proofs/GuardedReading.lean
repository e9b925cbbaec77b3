import Mathlib
import ProvenanceRelay.Proofs.Acts

/-!
Decoding by reads that can go wrong.

Here every read is tested against the bytes that are there, and fails where it would go past their
end. Nodes and socket addresses are read from the left, field after field, with what stands between
the fields skipped; all else is read at its place. No slice makes a read fail, and what is read is
what the records' own fields give.
-/

namespace ProvenanceRelay

namespace AnyRecord

/-- What comes of decoding a slice of a channel. -/
def read (shape : Shape) (bs : Bytes) : Except DecodeError Payload := do
  (← parse shape bs).decode

lemma read_of_size_ne {shape : Shape} {bs : Bytes} (h : bs.length ≠ shape.size) :
    read shape bs = .error (.wrongSize shape.size bs.length) := by
  rw [read, parse_of_size_ne h]
  rfl

lemma read_short (r : Record .short) : read .short r.bytes = .short <$> r.decodeShort := by
  rw [read, parse, Record.parse, dif_pos r.length_eq]
  rfl

lemma read_long (r : Record .long) : read .long r.bytes = .long <$> r.decodeLong := by
  rw [read, parse, Record.parse, dif_pos r.length_eq]
  rfl

end AnyRecord

/-- A computation that may read past an end, and may refuse what it has read. -/
abbrev Guarded := ExceptT DecodeError Option

/-- Bytes that are read from the left. -/
abbrev Cursor := StateT Bytes Option

namespace Guarded

open Text

/-! ### Reads -/

def stretch (bs : Bytes) (offset width : ℕ) : Option (Chunk width) :=
  if h : offset + width ≤ bs.length then some ⟨(bs.drop offset).take width, by simp; omega⟩
  else none

/-- The next bytes, if all of them are there. -/
def next (width : ℕ) : Cursor (Chunk width) := fun bs =>
  (stretch bs 0 width).map fun c => (c, bs.drop width)

def startAt {α : Type} (bs : Bytes) (offset : ℕ) (c : Cursor α) : Option α :=
  if offset ≤ bs.length then c.run' (bs.drop offset) else none

/-! ### Short records -/

def header (bs : Bytes) : Option Header := do
  return {
    identifier := ⟨← stretch bs 0 32⟩
    flags := (← stretch bs 32 4).u32
    epoch := (← stretch bs 40 8).u64 }

def relation (bs : Bytes) (kind : RelationKind) : Option Relation := do
  return {
    header := ← header bs
    kind
    sender := ⟨← stretch bs 64 32⟩
    receiver := ⟨← stretch bs 96 32⟩
    allowed := (← stretch bs 128 1).byte ≠ 0
    set := (← stretch bs 129 1).byte ≠ 0
    offset := (← stretch bs 136 8).i64
    flags := (← stretch bs 144 8).u64
    taskId := (← stretch bs 152 8).u64 }

def process (bs : Bytes) : Option Process := do
  let header ← header bs
  startAt bs 64 do
    return {
      header
      uid := (← next 4).u32
      gid := (← next 4).u32
      tgid := (← next 4).u32
      utsns := (← next 4).u32
      ipcns := (← next 4).u32
      mntns := (← next 4).u32
      pidns := (← next 4).u32
      netns := (← next 4).u32
      cgroupns := (← next 4).u32
      secid := (← next 4).u32 }

def task (bs : Bytes) : Option TaskNode := do
  let header ← header bs
  startAt bs 64 do
    return {
      header
      pid := (← next 4).u32
      vpid := (← next 4).u32
      utime := (← next 8).u64
      stime := (← next 8).u64
      vm := (← next 8).u64
      rss := (← next 8).u64
      hwVm := (← next 8).u64
      hwRss := (← next 8).u64
      rbytes := (← next 8).u64
      wbytes := (← next 8).u64
      cancelWbytes := (← next 8).u64 }

def inode (bs : Bytes) (kind : InodeKind) : Option Inode := do
  let header ← header bs
  startAt bs 64 do
    let uid ← next 4
    let gid ← next 4
    let mode ← next 2
    let _ ← next 2
    return {
      header
      kind
      uid := uid.u32
      gid := gid.u32
      mode := mode.u16
      secid := (← next 4).u32
      ino := (← next 8).u64
      dev := (← next 4).u32 }

def message (bs : Bytes) : Option Message := do
  let header ← header bs
  startAt bs 64 do
    return {
      header
      msgType := (← next 8).i64
      secid := (← next 4).u32 }

def sharedMemory (bs : Bytes) : Option SharedMemory := do
  let header ← header bs
  startAt bs 64 do
    let mode ← next 2
    let _ ← next 2
    return {
      header
      mode := mode.u16
      secid := (← next 4).u32 }

def packet (bs : Bytes) : Option Packet := do
  let header ← header bs
  startAt bs 64 do
    let sender ← next 4
    let receiver ← next 4
    let sport ← next 2
    let dport ← next 2
    let protocol ← next 1
    let _ ← next 3
    return {
      header
      sender := sender.netU32
      receiver := receiver.netU32
      sport := sport.netU16
      dport := dport.netU16
      protocol := protocol.byte
      iseq := (← next 4).netU32
      length := (← next 2).netU16 }

def inodeAttributes (bs : Bytes) : Option InodeAttributes := do
  let header ← header bs
  startAt bs 64 do
    let valid ← next 4
    let mode ← next 2
    let _ ← next 2
    return {
      header
      valid := valid.u32
      mode := mode.u16
      uid := (← next 4).u32
      gid := (← next 4).u32
      size := (← next 8).i64
      atime := (← next 8).i64
      mtime := (← next 8).i64
      ctime := (← next 8).i64 }

def shortPayload (bs : Bytes) : ShortKind → Option ShortPayload
  | .relation k => .relation <$> relation bs k
  | .node .process => .process <$> process bs
  | .node .task => .task <$> task bs
  | .node (.inode k) => .inode <$> inode bs k
  | .node .message => .message <$> message bs
  | .node .sharedMemory => .sharedMemory <$> sharedMemory bs
  | .node .packet => .packet <$> packet bs
  | .node .inodeAttributes => .inodeAttributes <$> inodeAttributes bs

/-! ### Long records -/

/-- What a stored length measures, unless the length is more than there is room for. -/
def area (bs : Bytes) (a : Area) (offset length : ℕ) : Guarded Bytes := do
  if a.capacity < length then throw (.tooLong a length)
  return (← stretch bs offset length).bytes

def sizedText (bs : Bytes) (a : Area) (offset length : ℕ) : Guarded String := do
  return Utf8.decodeLossy (← area bs a offset length)

def stringEntry (bs : Bytes) : Guarded StringEntry := do
  return {
    header := ← header bs
    value := ← sizedText bs .string 66 (← stretch bs 64 2).u16.toNat }

def pathEntry (bs : Bytes) : Guarded PathEntry := do
  return {
    header := ← header bs
    name := ← sizedText bs .path 66 (← stretch bs 64 2).u16.toNat }

def socketAddress (raw : Bytes) : Option (UInt16 × Option Net.SocketAddress) :=
  if raw.length < 2 then some (0, none)
  else startAt raw 0 do
    let family := (← next 2).u16
    let remaining := (← get).length
    if family = familyV4 then
      if 6 ≤ remaining then
        let port := (← next 2).netU16
        let ip := (← next 4).netU32
        return (family, some (.v4 ip port))
      else return (family, none)
    else if family = familyV6 then
      if 26 ≤ remaining then
        let port := (← next 2).netU16
        let flow := (← next 4).netU32
        let ip := BitVec.ofNat 128 (Bytes.ofBE (← next 16).bytes)
        let scope := (← next 4).u32
        return (family, some (.v6 ip port flow scope))
      else return (family, none)
    else return (family, none)

def addressEntry (bs : Bytes) : Guarded AddressEntry := do
  let header ← header bs
  let raw ← area bs .address 66 (← stretch bs 64 2).u16.toNat
  let (family, address) ← socketAddress raw
  return { header, family, address }

def xattrEntry (bs : Bytes) : Guarded XattrEntry := do
  let header ← header bs
  let value ← area bs .xattrValue 324 (← stretch bs 320 4).u32.toNat
  return {
    header
    name := (← stretch bs 64 256).zeroEnded
    value
    flags := (← stretch bs 2372 1).byte }

def disclosedNode (bs : Bytes) (kind : DisclosedKind) : Guarded DisclosedNode := do
  let header ← header bs
  let length := (← stretch bs 96 2).u16.toNat
  return {
    header
    kind
    parent := ⟨← stretch bs 64 32⟩
    content := ← sizedText bs .disclosedContent 98 length }

def packetContent (bs : Bytes) : Guarded PacketContent := do
  let header ← header bs
  let content ← area bs .packetContent 72 (← stretch bs 64 4).u32.toNat
  return {
    header
    content
    truncated := (← stretch bs 68 1).byte ≠ 0 }

def argument (bs : Bytes) (environment : Bool) : Guarded Argument := do
  let header ← header bs
  let length := (← stretch bs 64 2).u16.toNat
  return {
    header
    environment
    value := ← sizedText bs .argument 68 length
    truncated := (← stretch bs 66 1).byte ≠ 0 }

def machine (bs : Bytes) : Option Machine := do
  return {
    header := ← header bs
    sysname := (← stretch bs 64 65).zeroEnded
    nodename := (← stretch bs 129 65).zeroEnded
    release := (← stretch bs 194 65).zeroEnded
    version := (← stretch bs 259 65).zeroEnded
    machine := (← stretch bs 324 65).zeroEnded
    tracerVersion :=
      ((← stretch bs 389 1).byte, (← stretch bs 390 1).byte, (← stretch bs 391 1).byte)
    commit := (← stretch bs 392 40).zeroEnded }

def longPayload (bs : Bytes) : LongKind → Guarded LongPayload
  | .string => .string <$> stringEntry bs
  | .path => .path <$> pathEntry bs
  | .address => .address <$> addressEntry bs
  | .xattr => .xattr <$> xattrEntry bs
  | .disclosedEntity => .disclosed <$> disclosedNode bs .entity
  | .disclosedActivity => .disclosed <$> disclosedNode bs .activity
  | .disclosedAgent => .disclosed <$> disclosedNode bs .agent
  | .packetContent => .packetContent <$> packetContent bs
  | .argument => .argument <$> argument bs false
  | .environment => .argument <$> argument bs true
  | .machine => .machine <$> (machine bs : Guarded Machine)

/-! ### Slices of a channel -/

/-- A result that may be a refusal, without any read. -/
def given {α : Type} (x : Except DecodeError α) : Guarded α := ExceptT.mk (some x)

def decode (shape : Shape) (bs : Bytes) : Guarded Payload := do
  if bs.length ≠ shape.size then throw (.wrongSize shape.size bs.length)
  let tag := (← stretch bs 0 8).u64
  match shape with
  | .short => return .short (← shortPayload bs (← given (Record.classifyShort tag)))
  | .long => return .long (← longPayload bs (← given (Record.classifyLong tag)))

/-! ### No read fails -/

section

variable {n : ℕ} (c : Chunk n)

lemma stretch_bytes {offset width : ℕ} (h : offset + width ≤ n) :
    stretch c.bytes offset width = some (c.sub offset width h) := by
  rw [stretch, dif_pos (by rw [c.length_eq]; exact h)]
  rfl

lemma next_bind {α : Type} {offset width : ℕ} (h : offset + width ≤ n)
    (f : Chunk width → Cursor α) :
    (next width >>= f) (c.bytes.drop offset) =
      f (c.sub offset width h) (c.bytes.drop (offset + width)) := by
  have hnext : next width (c.bytes.drop offset) =
      some (c.sub offset width h, c.bytes.drop (offset + width)) := by
    have hlen : 0 + width ≤ (c.bytes.drop offset).length := by
      rw [List.length_drop, c.length_eq]
      omega
    rw [next, stretch, dif_pos hlen, Option.map_some]
    exact congrArg some (Prod.ext rfl List.drop_drop)
  show (next width (c.bytes.drop offset)).bind (fun p => f p.1 p.2) = _
  rw [hnext]
  rfl

lemma startAt_bytes {α : Type} {offset : ℕ} (h : offset ≤ n) (p : Cursor α) :
    startAt c.bytes offset p = (p (c.bytes.drop offset)).map Prod.fst := by
  rw [startAt, if_pos (by rw [c.length_eq]; exact h)]
  rfl

end

lemma header_bytes {shape : Shape} (r : Record shape) : header r.bytes = some r.header := by
  have hfits : Record.headerSize ≤ shape.size := Record.header_fits shape
  have hhead (offset width : ℕ) (h : offset + width ≤ Record.headerSize) :
      stretch r.bytes offset width = some (r.head offset width h) := stretch_bytes r (h.trans hfits)
  rw [header, hhead 0 32 (by decide), hhead 32 4 (by decide), hhead 40 8 (by decide)]
  rfl

lemma shortPayload_bytes (r : Record .short) (k : ShortKind) :
    shortPayload r.bytes k = some (r.shortPayload k) := by
  rcases k with k | k
  case relation =>
    simp (disch := decide) only [shortPayload, relation, header_bytes, stretch_bytes r,
      Option.bind_eq_bind, Option.bind_some]
    rfl
  -- the nodes, each read from the left
  rcases k with _ | _ | k | _ | _ | _ | _ <;>
    simp (disch := decide) only [shortPayload, process, task, inode, message, sharedMemory, packet,
      inodeAttributes, header_bytes, startAt_bytes, next_bind, Option.bind_eq_bind,
      Option.bind_some] <;>
    rfl

lemma socketAddress_bytes {w : ℕ} (raw : Chunk w) :
    socketAddress raw.bytes = some (ProvenanceRelay.socketAddress raw) := by
  unfold socketAddress ProvenanceRelay.socketAddress
  by_cases hw : w < 2
  · rw [if_pos (by rw [raw.length_eq]; exact hw), dif_pos hw]
  have hremaining : (raw.bytes.drop (0 + 2)).length = w - 2 := by
    rw [List.length_drop, raw.length_eq]
  have hget {α : Type} (f : Bytes → Cursor α) (bs : Bytes) : (get >>= f) bs = f bs bs := rfl
  rw [if_neg (by rw [raw.length_eq]; exact hw), dif_neg hw, startAt_bytes _ (by omega),
    next_bind _ (by omega), hget]
  simp only [hremaining]
  by_cases h4 : (raw.sub 0 2 (by omega)).u16 = familyV4
  · simp only [if_pos h4]
    by_cases hlen : 8 ≤ w
    · rw [if_pos (by omega), dif_pos hlen, next_bind _ (by omega), next_bind _ (by omega)]
      rfl
    · rw [if_neg (by omega), dif_neg hlen]
      rfl
  simp only [if_neg h4]
  by_cases h6 : (raw.sub 0 2 (by omega)).u16 = familyV6
  · simp only [if_pos h6]
    by_cases hlen : 28 ≤ w
    · rw [if_pos (by omega), dif_pos hlen, next_bind _ (by omega), next_bind _ (by omega),
        next_bind _ (by omega), next_bind _ (by omega)]
      rfl
    · rw [if_neg (by omega), dif_neg hlen]
      rfl
  · simp only [if_neg h6]
    rfl

lemma given_bind {α β : Type} {x : Except DecodeError α} {f : α → Guarded β}
    {g : α → Except DecodeError β} (h : ∀ a, f a = given (g a)) :
    given x >>= f = given (x >>= g) := by
  cases x with
  | error e => rfl
  | ok a => exact h a

lemma given_map_bind {α β γ : Type} {x : Except DecodeError α} {f : α → β} {k : β → Guarded γ}
    {g : α → Except DecodeError γ} (h : ∀ a, k (f a) = given (g a)) :
    given (x.map f) >>= k = given (x >>= g) := by
  cases x with
  | error e => rfl
  | ok a => exact h a

section

variable (r : Record .long)

lemma area_bytes (a : Area) (offset length : ℕ) (h : offset + a.capacity ≤ Shape.long.size) :
    area r.bytes a offset length =
      given ((r.area a offset length h).map fun c => c.2.bytes) := by
  by_cases hlen : length ≤ a.capacity
  · rw [area, if_neg (by omega), stretch_bytes r (by omega)]
    simp only [Record.area, Area.check, dif_pos hlen]
    rfl
  · rw [area, if_pos (by omega)]
    simp only [Record.area, Area.check, dif_neg hlen]
    rfl

lemma sizedText_bytes (a : Area) (offset length : ℕ) (h : offset + a.capacity ≤ Shape.long.size) :
    sizedText r.bytes a offset length = given (r.sizedText a offset length h) := by
  rw [sizedText, area_bytes r a offset length h, Record.sizedText]
  cases r.area a offset length h <;> rfl

lemma stringEntry_bytes : stringEntry r.bytes = given r.stringEntry := by
  rw [stringEntry, header_bytes, stretch_bytes r (by decide)]
  simp (disch := decide) only [sizedText_bytes r]
  exact given_bind fun _ => rfl

lemma pathEntry_bytes : pathEntry r.bytes = given r.pathEntry := by
  rw [pathEntry, header_bytes, stretch_bytes r (by decide)]
  simp (disch := decide) only [sizedText_bytes r]
  exact given_bind fun _ => rfl

lemma addressEntry_bytes : addressEntry r.bytes = given r.addressEntry := by
  rw [addressEntry, header_bytes, stretch_bytes r (by decide)]
  simp (disch := decide) only [area_bytes r]
  refine given_map_bind fun raw => ?_
  rw [socketAddress_bytes]
  rfl

lemma xattrEntry_bytes : xattrEntry r.bytes = given r.xattrEntry := by
  rw [xattrEntry, header_bytes, stretch_bytes r (by decide)]
  simp (disch := decide) only [area_bytes r, stretch_bytes r]
  exact given_map_bind fun _ => rfl

lemma disclosedNode_bytes (k : DisclosedKind) :
    disclosedNode r.bytes k = given (r.disclosedNode k) := by
  rw [disclosedNode, header_bytes]
  simp (disch := decide) only [sizedText_bytes r, stretch_bytes r]
  exact given_bind fun _ => rfl

lemma packetContent_bytes : packetContent r.bytes = given r.packetContent := by
  rw [packetContent, header_bytes]
  simp (disch := decide) only [area_bytes r, stretch_bytes r]
  exact given_map_bind fun _ => rfl

lemma argument_bytes (environment : Bool) :
    argument r.bytes environment = given (r.argument environment) := by
  rw [argument, header_bytes]
  simp (disch := decide) only [sizedText_bytes r, stretch_bytes r]
  exact given_bind fun _ => rfl

lemma machine_bytes : machine r.bytes = some r.machine := by
  rw [machine, header_bytes]
  simp (disch := decide) only [stretch_bytes r, Option.bind_eq_bind, Option.bind_some]
  rfl

lemma longPayload_bytes (k : LongKind) : longPayload r.bytes k = given (r.longPayload k) := by
  have hmap {α : Type} (f : α → LongPayload) (x : Except DecodeError α) :
      f <$> given x = given (f <$> x) := by cases x <;> rfl
  cases k <;>
    simp only [longPayload, stringEntry_bytes, pathEntry_bytes, addressEntry_bytes,
      xattrEntry_bytes, disclosedNode_bytes, packetContent_bytes, argument_bytes, machine_bytes,
      hmap, Record.longPayload]
  rfl

end

lemma decode_eq_given (shape : Shape) (bs : Bytes) :
    decode shape bs = given (AnyRecord.read shape bs) := by
  by_cases hsize : bs.length = shape.size
  · obtain ⟨r, rfl⟩ : ∃ r : Record shape, r.bytes = bs := ⟨⟨bs, hsize⟩, rfl⟩
    have htag : stretch r.bytes 0 8 = some (r.head 0 8) := by
      rw [stretch_bytes r (by cases shape <;> decide)]
      rfl
    have hmap {α β : Type} (f : α → β) (x : Except DecodeError α) :
        (do return f (← given x)) = given (f <$> x) := by cases x <;> rfl
    rw [decode, if_neg (not_not_intro hsize), htag]
    cases shape with
    | short =>
      simp only [shortPayload_bytes]
      rw [AnyRecord.read_short, Record.decodeShort, Functor.map_map]
      exact hmap _ _
    | long =>
      simp only [longPayload_bytes]
      rw [AnyRecord.read_long, Record.decodeLong]
      show (given (Record.classifyLong r.tag) >>= fun k => do
        return Payload.long (← given (r.longPayload k))) = _
      cases Record.classifyLong r.tag with
      | error e => rfl
      | ok k => exact hmap _ _
  · rw [decode, if_pos hsize, AnyRecord.read_of_size_ne hsize]
    rfl

end Guarded

end ProvenanceRelay
