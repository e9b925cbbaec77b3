import Mathlib
import ProvenanceRelay.Proofs.DecodeFaults
import ProvenanceRelay.Proofs.LongLayout
import ProvenanceRelay.Proofs.ShortLayout

/-!
Records that are composed, and what is read of them.

What is put into a draft changes nothing else in it. So a draft keeps the header that it began with,
and zeros where nothing has been put. A text that is too long for its place is put in nevertheless,
as long as the record has room for it; its length is then stored in full, and the record is refused
for it. The length would be cut only where the text has no room in the record.
-/

namespace ProvenanceRelay

open Text

/-! ### What is held, byte by byte -/

lemma Bytes.holds_iff {bs : Bytes} {f : Field} :
    bs.Holds f ↔ ∀ i < f.bytes.length, bs[f.offset + i]? = f.bytes[i]? := by
  constructor
  · intro h i hi
    have hbyte := congrArg (·[i]?) h
    simpa only [List.getElem?_take_of_lt hi, List.getElem?_drop] using hbyte
  · intro h
    refine List.ext_getElem? fun i => ?_
    rcases lt_or_ge i f.bytes.length with hi | hi
    · rw [List.getElem?_take_of_lt hi, List.getElem?_drop, h i hi]
    · rw [List.getElem?_eq_none hi, List.getElem?_eq_none (by simp; omega)]

lemma Bytes.Holds.join {bs front back : Bytes} {offset : ℕ} (hfront : bs.Holds ⟨offset, front⟩)
    (hback : bs.Holds ⟨offset + front.length, back⟩) : bs.Holds ⟨offset, front ++ back⟩ := by
  rw [holds_iff] at *
  intro i hi
  rcases lt_or_ge i front.length with hlt | hge
  · rw [List.getElem?_append_left hlt]
    exact hfront i hlt
  · rw [List.getElem?_append_right hge]
    rw [List.length_append] at hi
    have := hback (i - front.length) (by dsimp only; omega)
    rwa [show offset + front.length + (i - front.length) = offset + i by omega] at this

lemma InOrder.le_offset {a z : ℕ} {f : Field} {fs : List Field} (h : InOrder a fs z)
    (hf : f ∈ fs) : a ≤ f.offset := by
  induction fs generalizing a with
  | nil => cases hf
  | cons g gs ih =>
    rcases List.mem_cons.mp hf with rfl | hf
    · exact h.1
    · have := ih h.2 hf
      have := h.1
      omega

/-- The fields have no byte of the record in common. -/
def Field.Apart (f g : Field) : Prop :=
  f.offset + f.bytes.length ≤ g.offset ∨ g.offset + g.bytes.length ≤ f.offset

namespace Draft

variable {d e : Draft}

lemma getElem?_put {offset : ℕ} {bs : Bytes} (h : d.put offset bs = some e) {i : ℕ}
    (hi : i < offset ∨ offset + bs.length ≤ i) : e.bytes[i]? = d.bytes[i]? := by
  unfold put at h
  split at h
  · next hfits =>
    cases h
    rcases hi with hi | hi
    · rw [List.getElem?_append_left (by simp; omega), List.getElem?_append_left (by simp; omega),
        List.getElem?_take_of_lt hi]
    · have hlength : (d.bytes.take offset ++ bs).length = offset + bs.length := by simp; omega
      rw [List.getElem?_append_right (by omega), List.getElem?_drop, hlength]
      congr 1
      omega
  · cases h

lemma holds_put {f g : Field} (h : d.put g.offset g.bytes = some e) (hf : d.bytes.Holds f)
    (happart : f.Apart g) : e.bytes.Holds f := by
  rw [Bytes.holds_iff] at *
  intro i hi
  rw [getElem?_put h (by rcases happart with h | h <;> omega)]
  exact hf i hi

lemma holds_putAll {f : Field} {gs : List Field} (h : d.putAll gs = some e)
    (hf : d.bytes.Holds f) (happart : ∀ g ∈ gs, f.Apart g) : e.bytes.Holds f := by
  induction gs generalizing d with
  | nil =>
    cases h
    exact hf
  | cons g gs ih =>
    rw [putAll, List.foldlM_cons] at h
    obtain ⟨d', hput, hrest⟩ := Option.bind_eq_some_iff.mp h
    exact ih hrest (holds_put hput hf (happart g (List.mem_cons_self ..)))
      fun g' hg' => happart g' (List.mem_cons_of_mem _ hg')

lemma putAll_eq_none {f : Field} {fs : List Field} (hf : f ∈ fs)
    (hlong : d.bytes.length < f.offset + f.bytes.length) : d.putAll fs = none := by
  induction fs generalizing d with
  | nil => cases hf
  | cons g gs ih =>
    rw [putAll, List.foldlM_cons]
    cases hput : d.put g.offset g.bytes with
    | none => rfl
    | some d' =>
      rcases List.mem_cons.mp hf with rfl | hf
      · rw [put, if_neg (by omega)] at hput
        cases hput
      · exact ih hf (by rwa [length_put hput])

/-! ### Headers -/

/-- The draft has the size of the shape, and begins with the header. -/
structure Begins (d : Draft) (shape : Shape) (h : Header) : Prop where
  size : d.bytes.length = shape.size
  header : ∀ f ∈ h.fields, d.bytes.Holds f

lemma getElem?_new {shape : Shape} {t : Tag} {i : ℕ} (hlow : 8 ≤ i) (hhigh : i < shape.size) :
    (new shape t).bytes[i]? = some 0 := by
  rw [new, List.getElem?_append_right (by simpa using hlow), List.getElem?_replicate,
    Bytes.length_toLE, if_pos (by omega)]

/-- Behind the tag there is nothing but zeros. -/
lemma holds_new_zeros {shape : Shape} {t : Tag} {offset n : ℕ} (hlow : 8 ≤ offset)
    (hhigh : offset + n ≤ shape.size) : (new shape t).bytes.Holds ⟨offset, List.replicate n 0⟩ := by
  rw [Bytes.holds_iff]
  intro i hi
  simp only [List.length_replicate] at hi
  rw [getElem?_new (by dsimp only; omega) (by dsimp only; omega), List.getElem?_replicate,
    if_pos hi]

lemma holds_new_tag (shape : Shape) (t : Tag) :
    (new shape t).bytes.Holds ⟨0, Bytes.toLE 8 t.toNat⟩ :=
  (Bytes.holds_self _).append

/-- The header of a record with a tag, a number and an epoch, and with zeros elsewhere. -/
def freshHeader (t : Tag) (id epoch : UInt64) : Header where
  identifier := .new t id
  flags := 0
  epoch

/-- The parts of a fresh header, each of which is put on its own or left as it was. -/
lemma header_of_parts {bs : Bytes} {t : Tag} {id epoch : UInt64}
    (htag : bs.Holds ⟨0, Bytes.toLE 8 t.toNat⟩) (hid : bs.Holds ⟨8, Bytes.toLE 8 id.toNat⟩)
    (hrest : bs.Holds ⟨16, List.replicate 16 0⟩) (hflags : bs.Holds ⟨32, List.replicate 4 0⟩)
    (hepoch : bs.Holds ⟨40, Bytes.toLE 8 epoch.toNat⟩) :
    ∀ f ∈ (freshHeader t id epoch).fields, bs.Holds f := by
  simp only [Header.fields, freshHeader, layOut, alignTo, Datum.align, Datum.width,
    List.forall_mem_cons]
  have hfront := htag.join (by rw [Bytes.length_toLE]; exact hid)
  have hidentifier := hfront.join (by simpa using hrest)
  exact ⟨hidentifier, hflags, hepoch, List.forall_mem_nil _⟩

lemma tag_freshHeader (t : Tag) (id epoch : UInt64) :
    (freshHeader t id epoch).identifier.tag = t :=
  Chunk.u64_sub (Bytes.holds_self (Bytes.toLE 8 t.toNat)).append.append

/-- The draft begins with the header, and nothing has been put behind it. -/
structure Blank (d : Draft) (shape : Shape) (h : Header) : Prop extends Begins d shape h where
  zeros : ∀ offset n, 64 ≤ offset → offset + n ≤ shape.size →
    d.bytes.Holds ⟨offset, List.replicate n 0⟩

lemma blank_new (shape : Shape) (t : Tag) : (new shape t).Blank shape (freshHeader t 0 0) where
  size := length_new shape t
  header := by
    have hsize : 64 ≤ shape.size := Record.header_fits shape
    exact header_of_parts (holds_new_tag shape t) (holds_new_zeros (n := 8) (by omega) (by omega))
      (holds_new_zeros (by omega) (by omega)) (holds_new_zeros (by omega) (by omega))
      (holds_new_zeros (n := 8) (by omega) (by omega))
  zeros offset n hlow hhigh := holds_new_zeros (by omega) hhigh

/-- A new draft that has been given a number and an epoch. -/
def headed (shape : Shape) (t : Tag) (id epoch : UInt64) : Option Draft := do
  let d ← (new shape t).id id
  d.epoch epoch

lemma headed_eq (shape : Shape) (t : Tag) (id epoch : UInt64) :
    headed shape t id epoch = (new shape t).putAll
      [⟨8, Bytes.toLE 8 id.toNat⟩, ⟨40, Bytes.toLE 8 epoch.toNat⟩] := by
  simp only [headed, Draft.id, Draft.epoch, putNat, putAll, List.foldlM_cons, List.foldlM_nil,
    bind_pure]

lemma exists_headed (shape : Shape) (t : Tag) (id epoch : UInt64) :
    ∃ d, headed shape t id epoch = some d ∧ d.Blank shape (freshHeader t id epoch) := by
  have hsize : 64 ≤ shape.size := Record.header_fits shape
  have hnew := length_new shape t
  have horder : InOrder 8 [⟨8, Bytes.toLE 8 id.toNat⟩, ⟨40, Bytes.toLE 8 epoch.toNat⟩]
      (new shape t).bytes.length := by
    simp only [InOrder, Bytes.length_toLE]
    omega
  rw [headed_eq]
  obtain ⟨d, hput, hlength, -, hheld⟩ := exists_putAll horder
  simp only [List.forall_mem_cons] at hheld
  refine ⟨d, hput, ?_⟩
  exact {
    size := hlength.trans hnew
    header := header_of_parts
      (holds_putAll hput (holds_new_tag shape t) (by simp [Field.Apart])) hheld.1
      (holds_putAll hput (holds_new_zeros (by omega) (by omega)) (by simp [Field.Apart]))
      (holds_putAll hput (holds_new_zeros (by omega) (by omega)) (by simp [Field.Apart])) hheld.2.1
    zeros offset n hlow hhigh := by
      refine holds_putAll hput (holds_new_zeros (by omega) hhigh) ?_
      simp [Field.Apart]
      omega }

lemma Begins.putAll {shape : Shape} {h : Header} {fs : List Field} (hd : d.Begins shape h)
    (hput : d.putAll fs = some e) (hlength : e.bytes.length = d.bytes.length)
    (hbehind : ∀ f ∈ fs, 64 ≤ f.offset) : e.Begins shape h where
  size := hlength.trans hd.size
  header f hf := by
    refine holds_putAll hput (hd.header f hf) fun g hg => .inl ?_
    have hg := hbehind g hg
    have hwithin : f.offset + f.bytes.length ≤ 48 := by
      simp only [Header.fields, layOut, alignTo, Datum.align, Datum.width, List.mem_cons,
        List.not_mem_nil, or_false] at hf
      rcases hf with rfl | rfl | rfl <;> simp [Datum.length_bytes, Datum.width]
    omega

lemma Begins.exists_record {shape : Shape} {h : Header} (hd : d.Begins shape h) :
    ∃ r : Record shape, r.bytes = d.bytes ∧ r.header = h := by
  let r : Record shape := ⟨d.bytes, hd.size⟩
  have hheader : ∀ f ∈ h.fields, r.bytes.Holds f := hd.header
  exact ⟨r, rfl, Record.header_eq hheader⟩

/-! ### Texts -/

/-- What is read of a record that has been composed, if there is one. -/
def outcome (shape : Shape) (d : Option Draft) : Option (Except DecodeError Payload) :=
  d.map fun d => AnyRecord.read shape d.bytes

/-- What is read of a text of `n` bytes in a record with room for `room` of them: the payload if the
text fits in its area, the refusal of its length if it fits in the record alone, and else nothing,
as there is no record. -/
def textRead (room n : ℕ) (a : Area) (p : LongPayload) : Option (Except DecodeError Payload) :=
  if n ≤ 4096 then some (.ok (.long p))
  else if n ≤ room then some (.error (.tooLong a n))
  else none

variable {h : Header}

lemma read_eq_ok {p : LongPayload} {fs : List Field} (he : e.Begins .long p.header)
    (htag : p.longKind.tag = p.header.identifier.tag) (hstores : p.Stores fs)
    (hheld : ∀ f ∈ fs, e.bytes.Holds f) : AnyRecord.read .long e.bytes = .ok (.long p) := by
  obtain ⟨r, hbytes, hheader⟩ := he.exists_record
  rw [← hbytes] at hheld ⊢
  have hkind : Record.classifyLong r.tag = .ok p.longKind := by
    rwa [r.tag_eq, hheader, Record.classifyLong_eq_ok_iff]
  rw [AnyRecord.read_long, Record.decodeLong, hkind]
  exact congrArg (Payload.long <$> ·) (hstores.longPayload_eq hheader hheld)

/-- A length that is stored in full is refused if it is above the limit. -/
lemma read_eq_error {k : LongKind} {m : Measure} {n : ℕ} (he : e.Begins .long h)
    (htag : k.tag = h.identifier.tag) (hm : k.measure? = some m) (hfits : n < 256 ^ m.width)
    (hlength : e.bytes.Holds ⟨m.offset, Bytes.toLE m.width n⟩) (hlong : m.limit < n) :
    AnyRecord.read .long e.bytes = .error (.tooLong m.area n) := by
  have hnumber : e.bytes.numberAt m.offset m.width = n := by
    rw [Bytes.Holds, Bytes.length_toLE] at hlength
    rw [Bytes.numberAt, hlength, Bytes.ofLE_toLE hfits]
  obtain ⟨r, hbytes, hheader⟩ := he.exists_record
  have hk : k.tag = e.bytes.tag := by
    rw [htag, ← hheader, ← r.tag_eq, ← hbytes]
    rfl
  rw [AnyRecord.read_eq_error_iff]
  have hfault := Fault.length he.size hk hm (by rwa [hnumber])
  rwa [hnumber] at hfault

/-- Fields that end with a text, and have its length in front of them. -/
lemma outcome_putAll {p : LongPayload} {fs : List Field} {a : Area} {n offset room : ℕ}
    {hlimit : a.capacity = 4096} (hd : d.Begins .long p.header)
    (htag : p.longKind.tag = p.header.identifier.tag)
    (hm : p.longKind.measure? = some ⟨64, 2, a, 4096, hlimit⟩)
    (hstores : n ≤ 4096 → p.Stores fs) (horder : InOrder 64 fs (offset + n))
    (hlength : ⟨64, Bytes.toLE 2 n⟩ ∈ fs)
    (htext : ∃ f ∈ fs, f.offset + f.bytes.length = offset + n) (hoffset : offset ≤ 256)
    (hroom : offset + room = 4352) :
    outcome .long (d.putAll fs) = textRead room n a p := by
  have hsize : d.bytes.length = 4352 := hd.size
  by_cases hfits : n ≤ room
  · have hinside : InOrder 64 fs d.bytes.length := by
      have hend : InOrder (offset + n) [] d.bytes.length := by
        show offset + n ≤ d.bytes.length
        omega
      simpa using horder.append hend
    obtain ⟨e, hput, helength, -, hheld⟩ := exists_putAll hinside
    have he := hd.putAll hput helength fun f hf => horder.le_offset hf
    rw [hput, outcome, Option.map_some, textRead]
    split
    · next hshort => rw [read_eq_ok he htag (hstores hshort) hheld]
    · next hlong =>
      have hn : n < 256 ^ 2 := by omega
      rw [read_eq_error he htag hm hn (hheld _ hlength) (by dsimp only; omega)]
  · obtain ⟨f, hf, hend⟩ := htext
    rw [putAll_eq_none hf (by omega), outcome, Option.map_none, textRead, if_neg (by omega),
      if_neg hfits]

lemma string_eq (d : Draft) (s : String) :
    d.string s = d.putAll [⟨64, Bytes.toLE 2 (Utf8.encode s).length⟩, ⟨66, Utf8.encode s⟩] := by
  simp only [string, putNat, putAll, List.foldlM_cons, List.foldlM_nil, bind_pure]

lemma argument_eq (d : Draft) (s : String) (truncated : Bool) :
    d.argument s truncated = d.putAll [⟨64, Bytes.toLE 2 (Utf8.encode s).length⟩,
      ⟨66, [if truncated then 1 else 0]⟩, ⟨68, Utf8.encode s⟩] := by
  simp only [argument, putNat, putAll, List.foldlM_cons, List.foldlM_nil, bind_pure]

lemma outcome_string {p : LongPayload} {a : Area} {s : String} {hlimit : a.capacity = 4096}
    (hd : d.Begins .long p.header) (htag : p.longKind.tag = p.header.identifier.tag)
    (hm : p.longKind.measure? = some ⟨64, 2, a, 4096, hlimit⟩)
    (hstores : (Utf8.encode s).length ≤ 4096 →
      p.Stores [⟨64, Bytes.toLE 2 (Utf8.encode s).length⟩, ⟨66, Utf8.encode s⟩]) :
    outcome .long (d.string s) = textRead 4286 (Utf8.encode s).length a p := by
  rw [string_eq]
  exact outcome_putAll hd htag hm hstores ⟨le_rfl, by simp, le_rfl⟩ (by simp)
    ⟨_, by simp, rfl⟩ (by simp) rfl

lemma outcome_argument (hd : d.Begins .long h) (s : String) (truncated environment : Bool)
    (htag : (if environment then LongKind.environment else .argument).tag = h.identifier.tag) :
    outcome .long (d.argument s truncated) =
      textRead 4284 (Utf8.encode s).length .argument
        (.argument ⟨h, environment, s, truncated⟩) := by
  have hflag : truncated ↔ (if truncated then 1 else 0 : UInt8) ≠ 0 := by cases truncated <;> decide
  have hm : (if environment then LongKind.environment else .argument).measure? =
      some ⟨64, 2, .argument, 4096, rfl⟩ := by cases environment <;> rfl
  rw [argument_eq]
  exact outcome_putAll hd htag hm (fun hroom => .argument hflag hroom)
    ⟨le_rfl, by simp, by simp, le_rfl⟩ (by simp) ⟨_, by simp, rfl⟩ (by simp) rfl

/-! ### Relations -/

/-- What is put into a draft to make it a relation: its two nodes, and that it was allowed. -/
def relationFields (sender receiver : Identifier) : List Field :=
  [⟨64, sender.bytes⟩, ⟨96, receiver.bytes⟩, ⟨128, [1]⟩]

lemma relation_eq (d : Draft) (sender receiver : Identifier) :
    d.relation sender receiver = d.putAll (relationFields sender receiver) := by
  simp only [relation, putAll, relationFields, List.foldlM_cons, List.foldlM_nil, bind_pure]

/-- An allowed relation, all of whose other fields are zero. -/
def plainRelation (h : Header) (k : RelationKind) (sender receiver : Identifier) : Relation where
  header := h
  kind := k
  sender
  receiver
  allowed := true
  set := false
  offset := 0
  flags := 0
  taskId := 0

lemma outcome_relation {k : RelationKind} (hd : d.Blank .short h)
    (hk : (ShortKind.relation k).Announced h.identifier.tag) (sender receiver : Identifier) :
    outcome .short (d.relation sender receiver) =
      some (.ok (.short (.relation (plainRelation h k sender receiver)))) := by
  have hsize : d.bytes.length = 256 := hd.size
  have horder : InOrder 64 (relationFields sender receiver) d.bytes.length := by
    simp [relationFields, InOrder, Chunk.length_eq, hsize]
  obtain ⟨e, hput, hlength, -, hheld⟩ := exists_putAll horder
  have he := hd.putAll hput hlength fun f hf => horder.le_offset hf
  simp only [relationFields, List.forall_mem_cons] at hheld
  obtain ⟨hsender, hreceiver, hallowed, -⟩ := hheld
  have hzeros {offset n : ℕ} (hlow : 129 ≤ offset) (hhigh : offset + n ≤ 256) :
      e.bytes.Holds ⟨offset, List.replicate n 0⟩ := by
    refine holds_putAll hput (hd.zeros offset n (by omega) hhigh) fun g hg => .inr ?_
    simp only [relationFields, List.mem_cons, List.not_mem_nil, or_false] at hg
    rcases hg with rfl | rfl | rfl <;> simp [Chunk.length_eq] <;> omega
  let p : ShortPayload := .relation (plainRelation h k sender receiver)
  have hstores : p.Stores [.identifier sender, .identifier receiver, .byte 1, .byte 0, .i64 0,
      .u64 0, .u64 0] := .relation (by simp [plainRelation]) (by simp [plainRelation])
  obtain ⟨r, hbytes, hheader⟩ := he.exists_record
  have hkind : Record.classifyShort r.tag = .ok (.relation k) := by
    rwa [r.tag_eq, hheader, Record.classifyShort_eq_ok_iff]
  have hread : r.shortPayload p.shortKind = p := by
    refine hstores.shortPayload_eq hheader ?_
    rw [hbytes]
    simp only [layOut, alignTo, Datum.align, Datum.width, List.forall_mem_cons]
    exact ⟨hsender, hreceiver, hallowed, hzeros (n := 1) (by decide) (by decide),
      hzeros (n := 8) (by decide) (by decide), hzeros (n := 8) (by decide) (by decide),
      hzeros (n := 8) (by decide) (by decide), List.forall_mem_nil _⟩
  rw [relation_eq, hput, outcome, Option.map_some, ← hbytes, AnyRecord.read_short,
    Record.decodeShort, hkind]
  exact congrArg (fun q => some (Except.ok (Payload.short q))) hread

/-- **What is composed is read back, refused, or not composed**, never read as anything else. In a
draft of a long record, new or with anything put into it behind its header, a string, a path or an
argument of up to 4096 bytes is read as it is; a longer one is refused for its exact length as long
as the record has room for it, and there is no record where it has not. A relation that is composed
in a new draft is read with its number, its epoch and its nodes, as allowed, and else with zeros. -/
theorem composed_records_read_back (t : Tag) (id epoch : UInt64) :
    (∀ shape, (new shape t).Begins shape (freshHeader t 0 0) ∧
      (∃ d, headed shape t id epoch = some d ∧ d.Begins shape (freshHeader t id epoch)) ∧
      (freshHeader t id epoch).identifier.tag = t) ∧
    (∀ a ∈ [Area.string, .path, .argument], a.capacity = 4096) ∧
    (∀ (d : Draft) (h : Header) (s : String) (truncated : Bool), d.Begins .long h →
      let n := (Utf8.encode s).length
      (LongKind.string.tag = h.identifier.tag →
        outcome .long (d.string s) = textRead 4286 n .string (.string ⟨h, s⟩)) ∧
      (LongKind.path.tag = h.identifier.tag →
        outcome .long (d.string s) = textRead 4286 n .path (.path ⟨h, s⟩)) ∧
      ∀ environment,
        (if environment then LongKind.environment else .argument).tag = h.identifier.tag →
        outcome .long (d.argument s truncated) =
          textRead 4284 n .argument (.argument ⟨h, environment, s, truncated⟩)) ∧
    ∀ k sender receiver, (ShortKind.relation k).Announced t →
      outcome .short (headed .short t id epoch >>= fun d => d.relation sender receiver) =
        some (.ok (.short (.relation
          (plainRelation (freshHeader t id epoch) k sender receiver)))) := by
  refine ⟨fun shape => ⟨(blank_new shape t).toBegins, ?_, tag_freshHeader t id epoch⟩, by decide,
    ?_, ?_⟩
  · obtain ⟨d, hheaded, hd⟩ := exists_headed shape t id epoch
    exact ⟨d, hheaded, hd.toBegins⟩
  · intro d h s truncated hd n
    refine ⟨fun htag => ?_, fun htag => ?_, fun environment htag => ?_⟩
    · exact outcome_string (p := .string ⟨h, s⟩) hd htag rfl (.string (e := ⟨h, s⟩))
    · exact outcome_string (p := .path ⟨h, s⟩) hd htag rfl (.path (e := ⟨h, s⟩))
    · exact outcome_argument hd s truncated environment htag
  · intro k sender receiver hk
    obtain ⟨d, hheaded, hd⟩ := exists_headed .short t id epoch
    rw [← tag_freshHeader t id epoch] at hk
    rw [hheaded]
    exact outcome_relation hd hk sender receiver

end Draft

end ProvenanceRelay
