import Mathlib
import ProvenanceRelay.Proofs.GuardedReading
import ProvenanceRelay.Proofs.Inscription
import ProvenanceRelay.Proofs.Tags

/-!
Short records as they are laid out.

The values of a payload stand behind the header in their order, each at the next multiple of its
width or of eight bytes. What else stands in the record does not matter: it is read as the payload
whose values were put there.
-/

namespace ProvenanceRelay

namespace ShortPayload

def header : ShortPayload → Header
  | relation r => r.header
  | process n => n.header
  | task n => n.header
  | inode n => n.header
  | message n => n.header
  | sharedMemory n => n.header
  | packet n => n.header
  | inodeAttributes n => n.header

def shortKind : ShortPayload → ShortKind
  | relation r => .relation r.kind
  | process _ => .node .process
  | task _ => .node .task
  | inode n => .node (.inode n.kind)
  | message _ => .node .message
  | sharedMemory _ => .node .sharedMemory
  | packet _ => .node .packet
  | inodeAttributes _ => .node .inodeAttributes

/-- What the payload's record stores behind its header. A flag that is set is any byte but zero. -/
inductive Stores : ShortPayload → List Datum → Prop
  | relation {r : Relation} {allowed set : UInt8} (hallowed : r.allowed ↔ allowed ≠ 0)
      (hset : r.set ↔ set ≠ 0) :
      Stores (.relation r) [.identifier r.sender, .identifier r.receiver, .byte allowed, .byte set,
        .i64 r.offset, .u64 r.flags, .u64 r.taskId]
  | process (n : Process) :
      Stores (.process n) [.u32 n.uid, .u32 n.gid, .u32 n.tgid, .u32 n.utsns, .u32 n.ipcns,
        .u32 n.mntns, .u32 n.pidns, .u32 n.netns, .u32 n.cgroupns, .u32 n.secid]
  | task (n : TaskNode) :
      Stores (.task n) [.u32 n.pid, .u32 n.vpid, .u64 n.utime, .u64 n.stime, .u64 n.vm, .u64 n.rss,
        .u64 n.hwVm, .u64 n.hwRss, .u64 n.rbytes, .u64 n.wbytes, .u64 n.cancelWbytes]
  | inode (n : Inode) :
      Stores (.inode n) [.u32 n.uid, .u32 n.gid, .u16 n.mode, .u32 n.secid, .u64 n.ino, .u32 n.dev]
  | message (n : Message) : Stores (.message n) [.i64 n.msgType, .u32 n.secid]
  | sharedMemory (n : SharedMemory) : Stores (.sharedMemory n) [.u16 n.mode, .u32 n.secid]
  | packet (n : Packet) :
      Stores (.packet n) [.netU32 n.sender, .netU32 n.receiver, .netU16 n.sport, .netU16 n.dport,
        .byte n.protocol, .netU32 n.iseq, .netU16 n.length]
  | inodeAttributes (n : InodeAttributes) :
      Stores (.inodeAttributes n) [.u32 n.valid, .u16 n.mode, .u32 n.uid, .u32 n.gid, .i64 n.size,
        .i64 n.atime, .i64 n.mtime, .i64 n.ctime]

lemma Stores.inOrder {p : ShortPayload} {ds : List Datum} (h : p.Stores ds) :
    InOrder Record.headerSize (layOut 64 ds) Shape.short.size := by
  refine inOrder_layOut ?_
  cases h <;> simp only [layOutEnd, alignTo, Datum.align, Datum.width] <;> decide

-- where the values of a packet stand
example :
    (layOut 64 [.netU32 0, .netU32 0, .netU16 0, .netU16 0, .byte 0, .netU32 0, .netU16 0]).map
      Field.offset = [64, 68, 72, 74, 76, 80, 84] := by
  decide

lemma Stores.shortPayload_eq {p : ShortPayload} {ds : List Datum} (h : p.Stores ds)
    {r : Record .short} (hheader : r.header = p.header)
    (hheld : ∀ f ∈ layOut 64 ds, r.bytes.Holds f) : r.shortPayload p.shortKind = p := by
  cases h <;>
    simp only [layOut, alignTo, Datum.align, Datum.width, List.forall_mem_cons] at hheld
  case relation n allowed set hallowed hset =>
    obtain ⟨hsender, hreceiver, hallowedByte, hsetByte, hoffset, hflags, htaskId, -⟩ := hheld
    obtain ⟨⟩ := n
    simp only [shortKind, Record.shortPayload, Record.relation, relation.injEq, Relation.mk.injEq]
    exact ⟨hheader, trivial, Chunk.identifier_sub hsender, Chunk.identifier_sub hreceiver,
      Chunk.flag_sub hallowed hallowedByte, Chunk.flag_sub hset hsetByte, Chunk.i64_sub hoffset,
      Chunk.u64_sub hflags, Chunk.u64_sub htaskId⟩
  case process n =>
    obtain ⟨huid, hgid, htgid, hutsns, hipcns, hmntns, hpidns, hnetns, hcgroupns, hsecid, -⟩ :=
      hheld
    obtain ⟨⟩ := n
    simp only [shortKind, Record.shortPayload, Record.process, process.injEq, Process.mk.injEq]
    exact ⟨hheader, Chunk.u32_sub huid, Chunk.u32_sub hgid, Chunk.u32_sub htgid,
      Chunk.u32_sub hutsns, Chunk.u32_sub hipcns, Chunk.u32_sub hmntns, Chunk.u32_sub hpidns,
      Chunk.u32_sub hnetns, Chunk.u32_sub hcgroupns, Chunk.u32_sub hsecid⟩
  case task n =>
    obtain ⟨hpid, hvpid, hutime, hstime, hvm, hrss, hhwVm, hhwRss, hrbytes, hwbytes, hcancelWbytes,
      -⟩ := hheld
    obtain ⟨⟩ := n
    simp only [shortKind, Record.shortPayload, Record.task, task.injEq, TaskNode.mk.injEq]
    exact ⟨hheader, Chunk.u32_sub hpid, Chunk.u32_sub hvpid, Chunk.u64_sub hutime,
      Chunk.u64_sub hstime, Chunk.u64_sub hvm, Chunk.u64_sub hrss, Chunk.u64_sub hhwVm,
      Chunk.u64_sub hhwRss, Chunk.u64_sub hrbytes, Chunk.u64_sub hwbytes,
      Chunk.u64_sub hcancelWbytes⟩
  case inode n =>
    obtain ⟨huid, hgid, hmode, hsecid, hino, hdev, -⟩ := hheld
    obtain ⟨⟩ := n
    simp only [shortKind, Record.shortPayload, Record.inode, inode.injEq, Inode.mk.injEq]
    exact ⟨hheader, trivial, Chunk.u32_sub huid, Chunk.u32_sub hgid, Chunk.u16_sub hmode,
      Chunk.u32_sub hsecid, Chunk.u64_sub hino, Chunk.u32_sub hdev⟩
  case message n =>
    obtain ⟨hmsgType, hsecid, -⟩ := hheld
    obtain ⟨⟩ := n
    simp only [shortKind, Record.shortPayload, Record.message, message.injEq, Message.mk.injEq]
    exact ⟨hheader, Chunk.i64_sub hmsgType, Chunk.u32_sub hsecid⟩
  case sharedMemory n =>
    obtain ⟨hmode, hsecid, -⟩ := hheld
    obtain ⟨⟩ := n
    simp only [shortKind, Record.shortPayload, Record.sharedMemory, sharedMemory.injEq,
      SharedMemory.mk.injEq]
    exact ⟨hheader, Chunk.u16_sub hmode, Chunk.u32_sub hsecid⟩
  case packet n =>
    obtain ⟨hsender, hreceiver, hsport, hdport, hprotocol, hiseq, hlength, -⟩ := hheld
    obtain ⟨⟩ := n
    simp only [shortKind, Record.shortPayload, Record.packet, packet.injEq, Packet.mk.injEq]
    exact ⟨hheader, Chunk.netU32_sub hsender, Chunk.netU32_sub hreceiver, Chunk.netU16_sub hsport,
      Chunk.netU16_sub hdport, Chunk.byte_sub hprotocol, Chunk.netU32_sub hiseq,
      Chunk.netU16_sub hlength⟩
  case inodeAttributes n =>
    obtain ⟨hvalid, hmode, huid, hgid, hsize, hatime, hmtime, hctime, -⟩ := hheld
    obtain ⟨⟩ := n
    simp only [shortKind, Record.shortPayload, Record.inodeAttributes, inodeAttributes.injEq,
      InodeAttributes.mk.injEq]
    exact ⟨hheader, Chunk.u32_sub hvalid, Chunk.u16_sub hmode, Chunk.u32_sub huid,
      Chunk.u32_sub hgid, Chunk.i64_sub hsize, Chunk.i64_sub hatime, Chunk.i64_sub hmtime,
      Chunk.i64_sub hctime⟩

/-- **What is laid out in a short record is read back**: a payload whose tag announces its kind can
be put into any record, and whatever else that record holds, the payload is what is read. -/
theorem read_of_stored_values {p : ShortPayload} {ds : List Datum} (hstores : p.Stores ds)
    (htag : p.shortKind.Announced p.header.identifier.tag) (filler : Record .short) :
    ∃ r : Record .short,
      (Draft.mk filler.bytes).putAll (p.header.fields ++ layOut 64 ds) = some ⟨r.bytes⟩ ∧
        AnyRecord.read .short r.bytes = .ok (.short p) := by
  obtain ⟨r, hput, hheader, hheld⟩ := Record.exists_putAll hstores.inOrder p.header filler
  have hkind : Record.classifyShort r.tag = .ok p.shortKind := by
    rwa [r.tag_eq, hheader, Record.classifyShort_eq_ok_iff]
  refine ⟨r, hput, ?_⟩
  rw [AnyRecord.read_short, Record.decodeShort, hkind]
  exact congrArg (fun q => Except.ok (Payload.short q)) (hstores.shortPayload_eq hheader hheld)

/-- A generation with bits in its tag that tell nothing, and with an offset below zero. -/
def generation : Relation where
  header := { identifier := .new 0x8400000000000023 7, flags := 1, epoch := 2 }
  kind := .generated
  sender := .new NodeKind.task.tag 3
  receiver := .new (NodeKind.inode .file).tag 4
  allowed := true
  set := false
  offset := -1
  flags := 6
  taskId := 5

theorem read_of_stored_values_generation :
    let p : ShortPayload := .relation generation
    let ds : List Datum :=
      [.identifier generation.sender, .identifier generation.receiver, .byte 7, .byte 0, .i64 (-1),
        .u64 6, .u64 5]
    let filler : Record .short := ⟨List.replicate 256 0xFF, List.length_replicate⟩
    p.Stores ds ∧ p.shortKind.Announced p.header.identifier.tag ∧
      ∃ r : Record .short,
        (Draft.mk filler.bytes).putAll (p.header.fields ++ layOut 64 ds) = some ⟨r.bytes⟩ ∧
          AnyRecord.read .short r.bytes = .ok (.short p) := by
  intro p ds filler
  have hstores : p.Stores ds := .relation (by decide) (by decide)
  have htag : p.shortKind.Announced p.header.identifier.tag :=
    Record.classifyShort_eq_ok_iff.mp (by decide)
  exact ⟨hstores, htag, read_of_stored_values hstores htag filler⟩

end ShortPayload

end ProvenanceRelay
