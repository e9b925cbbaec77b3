import Mathlib
import ProvenanceRelay.Output.Notice
import ProvenanceRelay.Proofs.Acts
import ProvenanceRelay.Proofs.Figures
import ProvenanceRelay.Proofs.Inscription
import ProvenanceRelay.Proofs.LineWriting
import ProvenanceRelay.Proofs.Tags

/-!
One kind for a record from its tag to its line.

The tag, the name that its classification gives, the type that is decoded, the method that is
called, the name that it writes and the list of names to suppress are tables of their own. Here the
first five are shown to agree on every record that is handled, and the list to have the names of all
records and no other names.
-/

namespace ProvenanceRelay

open Dispatch Output

/-! ### Names -/

lemma Kind.names_eq : names = all.map name := by decide

lemma Kind.name_mem_names (k : Kind) : k.name ∈ names := by
  rw [names_eq]
  exact List.mem_map_of_mem k.mem_all

lemma ShortKind.name_eq (k : ShortKind) : k.name = k.kind.name := by
  cases k with
  | relation k => cases k <;> rfl
  | node k => cases k <;> rfl

lemma LongKind.name_eq (k : LongKind) : k.name = k.kind.name := by cases k <;> rfl

namespace AnyRecord

lemma kindName?_eq (r : AnyRecord) : r.kindName? = r.kind?.map Kind.name := by
  cases r with
  | short r => simp [kindName?, kind?, Function.comp_def, ShortKind.name_eq]
  | long r => simp [kindName?, kind?, Function.comp_def, LongKind.name_eq]

lemma kindName?_eq_some_iff {r : AnyRecord} {k : Kind} :
    r.kindName? = some k.name ↔ r.kind? = some k := by
  simp [kindName?_eq, Kind.name_injective.eq_iff]

end AnyRecord

/-! ### Methods -/

namespace Notice

lemma payload_of (p : Payload) : (of p).payload = p := by
  rcases p with p | p
  · cases p with
    | relation r => obtain ⟨_, kind, _⟩ := r; cases kind <;> rfl
    | _ => rfl
  · cases p with
    | disclosed n => obtain ⟨_, kind, _⟩ := n; cases kind <;> rfl
    | _ => rfl

lemma label_of (p : Payload) : (of p).label = p.kind.name := by
  rcases p with p | p
  · cases p with
    | relation r => obtain ⟨_, kind, _⟩ := r; cases kind <;> rfl
    | _ => rfl
  · cases p with
    | disclosed n => obtain ⟨_, kind, _⟩ := n; cases kind <;> rfl
    | _ => rfl

end Notice

def notices (as : List Act) : List Notice := (calls as).filterMap Call.notice?

/-- The methods that a slice has called, told by how it ends. -/
lemma notices_acts (policy : Policy) {shape : Shape} {bs : Bytes} {r : AnyRecord}
    (hparse : AnyRecord.parse shape bs = .ok r) :
    notices (acts policy shape bs) =
      if policy.query || policy.drops r then [] else (r.decode.toOption.map Notice.of).toList := by
  have hsame : ∀ {r'}, AnyRecord.parse shape bs = .ok r' → r' = r := by
    intro r' hparse'
    rw [hparse] at hparse'
    exact (Except.ok.inj hparse').symm
  have hending := ending policy shape bs
  generalize acts policy shape bs = as at hending
  cases hending with
  | missized size => exact absurd (AnyRecord.size_of_parse hparse) size
  | queried parsed query => simp [notices, Call.notice?, query]
  | filtered parsed query drops =>
    obtain rfl := hsame parsed
    simp [notices, Call.notice?, drops]
  | undecodable parsed query drops decoded =>
    obtain rfl := hsame parsed
    simp [notices, Call.notice?, refuse, query, drops, decoded, Except.toOption]
  | routed parsed query drops decoded =>
    obtain rfl := hsame parsed
    simp [notices, List.filterMap_cons, Call.notice?, query, drops, decoded, Except.toOption]

/-! ### Tags -/

lemma AnyRecord.decode_of_kind?_eq_none {r : AnyRecord} (hkind : r.kind? = none) :
    ∃ e, r.decode = .error e := by
  cases hdecode : r.decode with
  | error e => exact ⟨e, rfl⟩
  | ok p =>
    rw [kind?_of_decode hdecode] at hkind
    cases hkind

/-- A shape and a tag that announce a kind. -/
def Kind.herald : Kind → Shape × Tag
  | used => (.short, .relation ||| RelationKind.used.categoryBit)
  | informed => (.short, .relation ||| RelationKind.informed.categoryBit)
  | generated => (.short, .relation ||| RelationKind.generated.categoryBit)
  | derived => (.short, .relation ||| RelationKind.derived.categoryBit)
  | influenced => (.short, .relation ||| RelationKind.influenced.categoryBit)
  | associated => (.short, .relation ||| RelationKind.associated.categoryBit)
  | process => (.short, NodeKind.process.tag)
  | task => (.short, NodeKind.task.tag)
  | inode => (.short, (NodeKind.inode .file).tag)
  | message => (.short, NodeKind.message.tag)
  | shm => (.short, NodeKind.sharedMemory.tag)
  | packet => (.short, NodeKind.packet.tag)
  | iattr => (.short, NodeKind.inodeAttributes.tag)
  | string => (.long, LongKind.string.tag)
  | path => (.long, LongKind.path.tag)
  | address => (.long, LongKind.address.tag)
  | xattr => (.long, LongKind.xattr.tag)
  | entityDisc => (.long, LongKind.disclosedEntity.tag)
  | activityDisc => (.long, LongKind.disclosedActivity.tag)
  | agentDisc => (.long, LongKind.disclosedAgent.tag)
  | packetContent => (.long, LongKind.packetContent.tag)
  | argument => (.long, LongKind.argument.tag)
  | machine => (.long, LongKind.machine.tag)

lemma Record.tag_of_new {shape : Shape} {r : Record shape} {t : Tag}
    (hbytes : r.bytes = (Draft.new shape t).bytes) : r.tag = t := by
  refine Chunk.u64_sub ?_
  rw [hbytes]
  exact (Bytes.holds_self (Bytes.toLE 8 t.toNat)).append

lemma Kind.exists_record (k : Kind) :
    ∃ shape bs r, bs.length = Shape.size shape ∧ AnyRecord.parse shape bs = .ok r ∧
      r.kind? = some k := by
  rcases hherald : k.herald with ⟨shape, tag⟩
  have hlength := Draft.length_new shape tag
  refine ⟨shape, (Draft.new shape tag).bytes, ?_⟩
  cases shape with
  | short =>
    let r : Record .short := ⟨(Draft.new .short tag).bytes, hlength⟩
    have htag : r.tag = tag := Record.tag_of_new rfl
    refine ⟨.short r, hlength, ?_, ?_⟩
    · simp [AnyRecord.parse, Record.parse, hlength, Functor.map, Except.map, r]
    · rw [AnyRecord.kind?, htag]
      cases k <;> cases hherald <;> decide
  | long =>
    let r : Record .long := ⟨(Draft.new .long tag).bytes, hlength⟩
    have htag : r.tag = tag := Record.tag_of_new rfl
    refine ⟨.long r, hlength, ?_, ?_⟩
    · simp [AnyRecord.parse, Record.parse, hlength, Functor.map, Except.map, r]
    · rw [AnyRecord.kind?, htag]
      cases k <;> cases hherald <;> decide

/-! ### Lines -/

namespace Output.JsonLines

/-- A decoded record is handed to a method that writes it as a kind: the method has the record and
writes the name of the kind, the line begins with that name, and once the line has been written it
is counted for that kind and for no other. -/
structure WrittenAs (config : OutputConfig) (p : Payload) (k : Kind) : Prop where
  given : (Notice.of p).payload = p
  label : (Notice.of p).label = k.name
  line : ∀ names, ∃ ends, lineJson config.resolveNames names p =
    .object (("kind", .string (Notice.of p).label) :: (ends ++ [("record", p.json)]))
  counted : ∀ names s l,
    (respond config names (.handle p) s).metrics.figure (Metrics.writtenName l) =
      s.metrics.figure (Metrics.writtenName l) +
        if (s.out.line (lineJson config.resolveNames names p).pieces).2 ∧ l = k then 1 else 0

lemma figure_emit (s : JsonLines) (resolve : Bool) (names : NameTable) (p : Payload) (l : Kind) :
    (s.emit resolve names p).metrics.figure (Metrics.writtenName l) =
      s.metrics.figure (Metrics.writtenName l) +
        if (s.out.line (lineJson resolve names p).pieces).2 ∧ l = p.kind then 1 else 0 := by
  rw [Metrics.figure_writtenName, Metrics.figure_writtenName, emit]
  rcases s.out.line (lineJson resolve names p).pieces with ⟨out, _ | _⟩
  · simp [Metrics.fail]
  · simp [Metrics.write, Tally.get_bump]

lemma writtenAs_kind (config : OutputConfig) (p : Payload) : WrittenAs config p p.kind where
  given := Notice.payload_of p
  label := Notice.label_of p
  line names := by
    rw [Notice.label_of]
    exact ⟨_, rfl⟩
  counted names s l := figure_emit s config.resolveNames names p l

/-- The names that a slice has written if its lines go through. -/
def labels (config : OutputConfig) (shape : Shape) (bs : Bytes) : List String :=
  (notices (acts (policy config) shape bs)).map Notice.label

def suppressing (config : OutputConfig) (names : List String) : OutputConfig :=
  { config with suppress := names }

lemma drops_suppressing (config : OutputConfig) (k : Kind) (r : AnyRecord) :
    (policy (suppressing config [k.name])).drops r = true ↔ r.kind? = some k := by
  cases hkind : r.kind? with
  | none => simp [policy, hkind]
  | some l => simp [policy, suppresses, suppressing, hkind, Kind.name_injective.eq_iff]

lemma drops_suppressing_nil (config : OutputConfig) (r : AnyRecord) :
    (policy (suppressing config [])).drops r = false := by
  cases hkind : r.kind? <;> simp [policy, suppresses, suppressing, hkind]

/-- Suppressing a kind stops its lines and no others. -/
lemma labels_suppressing (config : OutputConfig) (k : Kind) {shape : Shape} {bs : Bytes}
    {r : AnyRecord} (hparse : AnyRecord.parse shape bs = .ok r) :
    labels (suppressing config [k.name]) shape bs =
      (labels (suppressing config []) shape bs).filter (· ≠ k.name) := by
  have hquery : ∀ names, (policy (suppressing config names)).query = config.queryMode :=
    fun _ => rfl
  simp only [labels, notices_acts _ hparse, hquery, drops_suppressing_nil, Bool.or_false]
  cases config.queryMode with
  | true => simp
  | false =>
    cases hdecode : r.decode with
    | error e => simp [Except.toOption]
    | ok p =>
      have hkind := AnyRecord.kind?_of_decode hdecode
      by_cases hk : p.kind = k
      · have hdrops : (policy (suppressing config [k.name])).drops r = true := by
          rw [drops_suppressing, hkind, hk]
        simp [hdrops, Except.toOption, Notice.label_of, hk]
      · have hdrops : (policy (suppressing config [k.name])).drops r = false := by
          rw [← Bool.not_eq_true, drops_suppressing, hkind, Option.some.injEq]
          exact hk
        have hname : p.kind.name ≠ k.name := fun h => hk (Kind.name_injective h)
        simp [hdrops, Except.toOption, Notice.label_of, hname]

/-- **The tables of kinds agree** on every record. The name that its classification gives is the
name of its kind and is on the list of names; a record to which it gives no name is refused and
reaches no method; a record that can be decoded reaches, unless it is dropped or only observed, the
one method that writes and counts it as the kind that its tag announces; suppressing a kind stops
what would be written as that kind and nothing else; and every name on the list is that of some
record. -/
theorem kind_tables_agree (config : OutputConfig) {shape : Shape} {bs : Bytes}
    (hsize : bs.length = shape.size) :
    (∃ r, AnyRecord.parse shape bs = .ok r ∧
      r.kindName? = r.kind?.map Kind.name ∧
      (∀ name, r.kindName? = some name → name ∈ Kind.names) ∧
      (r.kindName? = none → (∃ e, r.decode = .error e) ∧
        ∀ policy, notices (acts policy shape bs) = []) ∧
      (∀ p, r.decode = .ok p → ∃ k, r.kind? = some k ∧ WrittenAs config p k ∧
        (config.queryMode = false → (policy config).drops r = false →
          notices (acts (policy config) shape bs) = [.of p])) ∧
      ∀ k, ((policy (suppressing config [k.name])).drops r = true ↔ r.kind? = some k) ∧
        labels (suppressing config [k.name]) shape bs =
          (labels (suppressing config []) shape bs).filter (· ≠ k.name)) ∧
      ∀ name ∈ Kind.names, ∃ shape bs r, bs.length = Shape.size shape ∧
        AnyRecord.parse shape bs = .ok r ∧ r.kindName? = some name := by
  obtain ⟨r, hparse⟩ := AnyRecord.parse_of_size_eq hsize
  refine ⟨⟨r, hparse, r.kindName?_eq, ?_, ?_, ?_, ?_⟩, ?_⟩
  · -- the name is on the list
    intro name hname
    rw [AnyRecord.kindName?_eq, Option.map_eq_some_iff] at hname
    obtain ⟨k, -, rfl⟩ := hname
    exact k.name_mem_names
  · -- no name, no method
    intro hname
    rw [AnyRecord.kindName?_eq, Option.map_eq_none_iff] at hname
    obtain ⟨e, hdecode⟩ := AnyRecord.decode_of_kind?_eq_none hname
    refine ⟨⟨e, hdecode⟩, fun policy => ?_⟩
    rw [notices_acts policy hparse, hdecode]
    simp [Except.toOption]
  · -- a decoded record goes to the method for its type
    intro p hdecode
    refine ⟨p.kind, AnyRecord.kind?_of_decode hdecode, writtenAs_kind config p, ?_⟩
    intro hquery hdrops
    replace hquery : (policy config).query = false := hquery
    rw [notices_acts _ hparse, hdecode, hquery, hdrops]
    rfl
  · -- one kind suppressed
    intro k
    exact ⟨drops_suppressing config k r, labels_suppressing config k hparse⟩
  · -- every name is that of a record
    intro name hname
    rw [Kind.names_eq] at hname
    obtain ⟨k, -, rfl⟩ := List.mem_map.mp hname
    obtain ⟨shape, bs, r, hlength, hparse, hkind⟩ := k.exists_record
    exact ⟨shape, bs, r, hlength, hparse, AnyRecord.kindName?_eq_some_iff.mpr hkind⟩

/-- A string of an environment, which is written and suppressed as an argument. -/
def environmentRecord : Bytes := (Draft.new .long LongKind.environment.tag).bytes

theorem kind_tables_agree_environment :
    environmentRecord.length = Shape.long.size ∧
      labels (suppressing {} []) .long environmentRecord = ["argument"] ∧
      labels (suppressing {} ["argument"]) .long environmentRecord = [] := by
  have hsize : environmentRecord.length = Shape.long.size := Draft.length_new .long _
  have hwritten : labels (suppressing {} []) .long environmentRecord = ["argument"] := by
    decide +kernel
  obtain ⟨⟨r, -, -, -, -, -, hstops⟩, -⟩ := kind_tables_agree {} hsize
  have hstopped : labels (suppressing {} ["argument"]) .long environmentRecord =
      (labels (suppressing {} []) .long environmentRecord).filter (· ≠ "argument") :=
    (hstops .argument).2
  refine ⟨hsize, hwritten, ?_⟩
  rw [hstopped, hwritten]
  decide

end Output.JsonLines

end ProvenanceRelay
