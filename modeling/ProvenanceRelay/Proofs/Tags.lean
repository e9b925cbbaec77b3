import Mathlib
import ProvenanceRelay.Record.Long
import ProvenanceRelay.Record.Short

/-!
What a tag announces, told bit by bit.

A tag is that of a relation if its top bit is set, and then the six bits below the domains name the
family. Any other tag announces a node or a long record by its value alone.
-/

namespace ProvenanceRelay

/-! ### Look-up in a list of all -/

section

variable {α β : Type} [DecidableEq β] {f : α → β} {all : List α} {a : α} {b : β}

/-- What is found under a key that no two have is the one that has it. -/
lemma find?_eq_some_iff_of_injective (hall : ∀ a, a ∈ all) (hf : Function.Injective f) :
    all.find? (fun a => f a = b) = some a ↔ f a = b := by
  constructor
  · intro h
    simpa using List.find?_some h
  · rintro rfl
    obtain ⟨c, hc⟩ : ∃ c, all.find? (fun c => f c = f a) = some c :=
      Option.isSome_iff_exists.mp (List.find?_isSome.mpr ⟨a, hall a, by simp⟩)
    have hca : f c = f a := by simpa using List.find?_some hc
    rw [hc, hf hca]

end

/-! ### Bits -/

namespace Tag

/-- A bit of a tag; the lowest one has the number zero. -/
def bit (t : Tag) (i : ℕ) : Bool := t.toNat.testBit i

lemma isRelation_iff (t : Tag) : t.isRelation ↔ t.bit 63 := by
  have hmask : (t &&& relation).toNat = (t.toNat.testBit 63).toNat * 2 ^ 63 := by
    rw [UInt64.toNat_and, ← Nat.and_two_pow]
    rfl
  rw [isRelation, decide_eq_true_iff, ne_eq, ← UInt64.toNat_inj, hmask, bit]
  cases t.toNat.testBit 63 <;> simp

end Tag

/-! ### Relations -/

namespace RelationKind

def bit : RelationKind → ℕ
  | derived => 59
  | generated => 58
  | used => 57
  | informed => 56
  | influenced => 55
  | associated => 54

lemma mem_all (k : RelationKind) : k ∈ all := by cases k <;> decide

lemma bit_injective : Function.Injective bit := by
  have h : ∀ k ∈ all, ∀ l ∈ all, k.bit = l.bit → k = l := by decide
  exact fun k l => h k (mem_all k) l (mem_all l)

lemma le_bit (k : RelationKind) : 54 ≤ k.bit ∧ k.bit ≤ 59 := by cases k <;> decide

lemma exists_bit_eq {i : ℕ} (hlow : 54 ≤ i) (hhigh : i ≤ 59) : ∃ k : RelationKind, k.bit = i := by
  interval_cases i
  exacts [⟨associated, rfl⟩, ⟨influenced, rfl⟩, ⟨informed, rfl⟩, ⟨used, rfl⟩, ⟨generated, rfl⟩,
    ⟨derived, rfl⟩]

lemma testBit_categoryBit (k : RelationKind) (i : ℕ) :
    k.categoryBit.toNat.testBit i = decide (i = k.bit) := by
  have hpow : k.categoryBit.toNat = 2 ^ k.bit := by cases k <;> decide
  rw [hpow, Nat.testBit_two_pow]
  exact decide_eq_decide.mpr eq_comm

lemma testBit_categories (i : ℕ) :
    categories.toNat.testBit i = decide (54 ≤ i ∧ i ≤ 59) := by
  have hmask : categories.toNat = (2 ^ 6 - 1) <<< 54 := by decide
  rw [hmask, Nat.testBit_shiftLeft, Nat.testBit_two_pow_sub_one]
  by_cases hi : 54 ≤ i <;> simp [hi]
  omega

lemma categoryBit_injective : Function.Injective categoryBit := by
  intro k l h
  have hbit : k.categoryBit.toNat.testBit k.bit = l.categoryBit.toNat.testBit k.bit := by rw [h]
  rw [testBit_categoryBit, testBit_categoryBit] at hbit
  exact bit_injective (by simpa using hbit)

/-- Of the category bits, one alone is set. -/
lemma and_categories_eq_iff {t : Tag} {k : RelationKind} :
    t &&& categories = k.categoryBit ↔ ∀ i, 54 ≤ i → i ≤ 59 → (t.bit i ↔ i = k.bit) := by
  have hbits : t &&& categories = k.categoryBit ↔
      ∀ i, (t.bit i && decide (54 ≤ i ∧ i ≤ 59)) = decide (i = k.bit) := by
    rw [← UInt64.toNat_inj, UInt64.toNat_and]
    simp only [Tag.bit, ← testBit_categories, ← testBit_categoryBit, ← Nat.testBit_and]
    exact ⟨fun h i => by rw [h], Nat.eq_of_testBit_eq⟩
  rw [hbits]
  refine forall_congr' fun i => ?_
  have hk := k.le_bit
  by_cases hi : 54 ≤ i ∧ i ≤ 59
  · cases t.bit i <;> simp [hi]
  · have hne : i ≠ k.bit := by omega
    simp only [hi, hne, decide_false, Bool.and_false, true_iff]
    exact fun hlow hhigh => absurd ⟨hlow, hhigh⟩ hi

theorem ofTag?_eq_some_iff {t : Tag} {k : RelationKind} :
    ofTag? t = some k ↔ t.bit 63 ∧ ∀ i, 54 ≤ i → i ≤ 59 → (t.bit i ↔ i = k.bit) := by
  have hfind : (all.find? fun k => t &&& categories = k.categoryBit) = some k ↔
      t &&& categories = k.categoryBit := by
    simpa only [eq_comm] using find?_eq_some_iff_of_injective mem_all categoryBit_injective
  rw [ofTag?, ← Tag.isRelation_iff, ← and_categories_eq_iff]
  split
  · next h => simp only [hfind, h, true_and]
  · next h => simp [h]

/-- A tag tells a family if its top bit and exactly one category bit are set. -/
theorem ofTag?_isSome_iff {t : Tag} :
    (ofTag? t).isSome ↔ t.bit 63 ∧ ∃! i, (54 ≤ i ∧ i ≤ 59) ∧ t.bit i := by
  simp only [Option.isSome_iff_exists, ofTag?_eq_some_iff, exists_and_left]
  refine and_congr_right fun _ => ⟨?_, ?_⟩
  · rintro ⟨k, hk⟩
    refine ⟨k.bit, ⟨k.le_bit, (hk _ k.le_bit.1 k.le_bit.2).mpr rfl⟩, ?_⟩
    rintro i ⟨⟨hlow, hhigh⟩, hi⟩
    exact (hk i hlow hhigh).mp hi
  · rintro ⟨i, ⟨⟨hlow, hhigh⟩, hi⟩, hunique⟩
    obtain ⟨k, rfl⟩ := exists_bit_eq hlow hhigh
    refine ⟨k, fun j hlow hhigh => ⟨fun hj => hunique j ⟨⟨hlow, hhigh⟩, hj⟩, ?_⟩⟩
    rintro rfl
    exact hi

end RelationKind

/-! ### Nodes and long records -/

/-- The tags of the nodes on short records: one activity and thirteen entities. -/
def Tag.IsNode (t : Tag) : Prop :=
  t.toNat = 2 ^ 62 + 1 ∨ 2 ^ 61 + 1 ≤ t.toNat ∧ t.toNat ≤ 2 ^ 61 + 13

/-- The tags of long records: eight entities, one activity and two agents. -/
def Tag.IsLong (t : Tag) : Prop :=
  (2 ^ 61 + 14 ≤ t.toNat ∧ t.toNat ≤ 2 ^ 61 + 21) ∨ t.toNat = 2 ^ 62 + 2 ∨
    t.toNat = 2 ^ 60 + 1 ∨ t.toNat = 2 ^ 60 + 2

namespace NodeKind

lemma mem_all (k : NodeKind) : k ∈ all := by
  rcases k with _ | _ | k | _ | _ | _ | _
  case inode => cases k <;> decide
  all_goals decide

lemma tag_injective : Function.Injective tag := by
  have h : ∀ k ∈ all, ∀ l ∈ all, k.tag = l.tag → k = l := by decide
  exact fun k l => h k (mem_all k) l (mem_all l)

theorem ofTag?_eq_some_iff {t : Tag} {k : NodeKind} : ofTag? t = some k ↔ k.tag = t :=
  find?_eq_some_iff_of_injective mem_all tag_injective

lemma isNode_iff {t : Tag} : t.IsNode ↔ ∃ k : NodeKind, k.tag = t := by
  constructor
  · have hentity : ∀ i : Fin 13, ∃ k ∈ all, k.tag.toNat = 2 ^ 61 + 1 + i := by decide
    rintro (h | ⟨hlow, hhigh⟩)
    · exact ⟨task, UInt64.toNat_inj.mp h.symm⟩
    · obtain ⟨k, -, hk⟩ := hentity ⟨t.toNat - (2 ^ 61 + 1), by omega⟩
      exact ⟨k, UInt64.toNat_inj.mp (by rw [hk]; dsimp only; omega)⟩
  · rintro ⟨k, rfl⟩
    have h : ∀ k ∈ all, k.tag.toNat = 2 ^ 62 + 1 ∨
        2 ^ 61 + 1 ≤ k.tag.toNat ∧ k.tag.toNat ≤ 2 ^ 61 + 13 := by decide
    exact h k (mem_all k)

lemma isSome_ofTag?_iff {t : Tag} : (ofTag? t).isSome ↔ t.IsNode := by
  rw [Option.isSome_iff_exists, isNode_iff]
  exact exists_congr fun k => ofTag?_eq_some_iff

lemma bit_tag (k : NodeKind) : k.tag.bit 63 = false := by
  have h : ∀ k ∈ all, k.tag.bit 63 = false := by decide
  exact h k (mem_all k)

lemma existsUnique_tag (k : NodeKind) : ∃! t, ofTag? t = some k := by
  simp only [ofTag?_eq_some_iff]
  exact existsUnique_eq'

end NodeKind

namespace LongKind

lemma mem_all (k : LongKind) : k ∈ all := by cases k <;> decide

lemma tag_injective : Function.Injective tag := by
  have h : ∀ k ∈ all, ∀ l ∈ all, k.tag = l.tag → k = l := by decide
  exact fun k l => h k (mem_all k) l (mem_all l)

theorem ofTag?_eq_some_iff {t : Tag} {k : LongKind} : ofTag? t = some k ↔ k.tag = t :=
  find?_eq_some_iff_of_injective mem_all tag_injective

lemma isLong_iff {t : Tag} : t.IsLong ↔ ∃ k : LongKind, k.tag = t := by
  constructor
  · have hentity : ∀ i : Fin 8, ∃ k ∈ all, k.tag.toNat = 2 ^ 61 + 14 + i := by decide
    rintro (⟨hlow, hhigh⟩ | h | h | h)
    · obtain ⟨k, -, hk⟩ := hentity ⟨t.toNat - (2 ^ 61 + 14), by omega⟩
      exact ⟨k, UInt64.toNat_inj.mp (by rw [hk]; dsimp only; omega)⟩
    · exact ⟨disclosedActivity, UInt64.toNat_inj.mp h.symm⟩
    · exact ⟨machine, UInt64.toNat_inj.mp h.symm⟩
    · exact ⟨disclosedAgent, UInt64.toNat_inj.mp h.symm⟩
  · rintro ⟨k, rfl⟩
    unfold Tag.IsLong
    cases k <;> decide

lemma isSome_ofTag?_iff {t : Tag} : (ofTag? t).isSome ↔ t.IsLong := by
  rw [Option.isSome_iff_exists, isLong_iff]
  exact exists_congr fun k => ofTag?_eq_some_iff

lemma bit_tag (k : LongKind) : k.tag.bit 63 = false := by cases k <;> decide

lemma existsUnique_tag (k : LongKind) : ∃! t, ofTag? t = some k := by
  simp only [ofTag?_eq_some_iff]
  exact existsUnique_eq'

end LongKind

/-! ### Both shapes -/

/-- The tags that announce a kind of short record. -/
def ShortKind.Announced : ShortKind → Tag → Prop
  | .relation k, t => t.bit 63 ∧ ∀ i, 54 ≤ i → i ≤ 59 → (t.bit i ↔ i = k.bit)
  | .node k, t => k.tag = t

namespace Record

theorem classifyShort_eq_ok_iff {t : Tag} {k : ShortKind} :
    classifyShort t = .ok k ↔ k.Announced t := by
  unfold classifyShort
  cases k with
  | relation k =>
    rw [ShortKind.Announced, ← RelationKind.ofTag?_eq_some_iff]
    cases hrel : t.isRelation with
    | true => cases hk : RelationKind.ofTag? t <;> simp
    | false =>
      have hnone : RelationKind.ofTag? t = none := by simp [RelationKind.ofTag?, hrel]
      cases hn : NodeKind.ofTag? t <;> simp [hnone]
  | node k =>
    rw [ShortKind.Announced, ← NodeKind.ofTag?_eq_some_iff]
    cases hrel : t.isRelation with
    | true =>
      have hnone : NodeKind.ofTag? t ≠ some k := by
        rw [ne_eq, NodeKind.ofTag?_eq_some_iff]
        rintro rfl
        rw [Tag.isRelation_iff, k.bit_tag] at hrel
        cases hrel
      cases hk : RelationKind.ofTag? t <;> simp [hnone]
    | false => cases hk : NodeKind.ofTag? t <;> simp

theorem classifyShort_eq_error_iff {t : Tag} {e : DecodeError} :
    classifyShort t = .error e ↔
      (t.bit 63 ∧ (¬ ∃! i, (54 ≤ i ∧ i ≤ 59) ∧ t.bit i) ∧ e = .unknownRelation t) ∨
        (¬ t.bit 63 ∧ ¬ t.IsNode ∧ e = .unknownNode t) := by
  have hrelation := RelationKind.ofTag?_isSome_iff (t := t)
  rw [← NodeKind.isSome_ofTag?_iff]
  unfold classifyShort
  cases hrel : t.isRelation with
  | true =>
    have hbit : t.bit 63 := (Tag.isRelation_iff t).mp hrel
    simp only [hbit, true_and] at hrelation
    rw [← hrelation]
    cases hk : RelationKind.ofTag? t with
    | some k => simp [hbit]
    | none => simpa [hbit] using eq_comm
  | false =>
    have hbit : ¬ t.bit 63 := fun h => by simp [(Tag.isRelation_iff t).mpr h] at hrel
    cases hk : NodeKind.ofTag? t with
    | some k => simp [hbit]
    | none => simpa [hbit] using eq_comm

theorem classifyLong_eq_ok_iff {t : Tag} {k : LongKind} : classifyLong t = .ok k ↔ k.tag = t := by
  rw [← LongKind.ofTag?_eq_some_iff]
  unfold classifyLong
  cases hk : LongKind.ofTag? t <;> simp

theorem classifyLong_eq_error_iff {t : Tag} {e : DecodeError} :
    classifyLong t = .error e ↔ ¬ t.IsLong ∧ e = .unknownLong t := by
  rw [← LongKind.isSome_ofTag?_iff]
  unfold classifyLong
  cases hk : LongKind.ofTag? t <;> simp [eq_comm]

end Record

namespace Tag

variable {t : Tag}

lemma IsNode.not_isRelation (h : t.IsNode) : ¬ t.isRelation := by
  obtain ⟨k, rfl⟩ := NodeKind.isNode_iff.mp h
  rw [isRelation_iff, k.bit_tag]
  exact Bool.false_ne_true

lemma IsLong.not_isRelation (h : t.IsLong) : ¬ t.isRelation := by
  obtain ⟨k, rfl⟩ := LongKind.isLong_iff.mp h
  rw [isRelation_iff, k.bit_tag]
  exact Bool.false_ne_true

/-- The numbers of long records go on where those of the nodes in their domain end. -/
lemma IsNode.not_isLong (h : t.IsNode) : ¬ t.IsLong := by
  unfold IsNode IsLong at *
  omega

lemma isRelation_of_isSome (h : (RelationKind.ofTag? t).isSome) : t.isRelation :=
  (isRelation_iff t).mpr (RelationKind.ofTag?_isSome_iff.mp h).1

lemma not_isLong_of_classifyShort {k : ShortKind} (h : Record.classifyShort t = .ok k) :
    ¬ t.IsLong := by
  rw [Record.classifyShort_eq_ok_iff] at h
  cases k with
  | relation k => exact fun hlong => hlong.not_isRelation ((isRelation_iff t).mpr h.1)
  | node k => exact IsNode.not_isLong (NodeKind.isNode_iff.mpr ⟨k, h⟩)

/-- **Tags are classified exactly, and at most one way.** A tag is that of a family just if its top
bit and, of the six category bits, that of the family alone are set. Of the three tables one at most
has the tag: none that announces a short record announces a long one, and no tag of a node or of a
long record is taken for a relation. Every kind of node and of long record has one tag. -/
theorem classified_exactly (t : Tag) :
    (∀ k, RelationKind.ofTag? t = some k ↔
      t.bit 63 ∧ ∀ i, 54 ≤ i → i ≤ 59 → (t.bit i ↔ k.categoryBit.bit i)) ∧
    (∀ (k : RelationKind) i, k.categoryBit.bit i ↔ i = k.bit) ∧
    [(RelationKind.ofTag? t).isSome, (NodeKind.ofTag? t).isSome,
      (LongKind.ofTag? t).isSome].count true ≤ 1 ∧
    ¬ ((∃ k, Record.classifyShort t = .ok k) ∧ ∃ k, Record.classifyLong t = .ok k) ∧
    (t.isRelation → NodeKind.ofTag? t = none ∧ LongKind.ofTag? t = none) ∧
    (∀ k, ∃! u, NodeKind.ofTag? u = some k) ∧ ∀ k, ∃! u, LongKind.ofTag? u = some k := by
  have hnode := fun h => IsNode.not_isRelation (NodeKind.isSome_ofTag?_iff (t := t).mp h)
  have hlong := fun h => IsLong.not_isRelation (LongKind.isSome_ofTag?_iff (t := t).mp h)
  have hboth : (NodeKind.ofTag? t).isSome → ¬ (LongKind.ofTag? t).isSome := by
    rw [NodeKind.isSome_ofTag?_iff, LongKind.isSome_ofTag?_iff]
    exact IsNode.not_isLong
  refine ⟨fun k => ?_, fun k i => by simp [bit, k.testBit_categoryBit], ?_, ?_, ?_,
    NodeKind.existsUnique_tag, LongKind.existsUnique_tag⟩
  · rw [RelationKind.ofTag?_eq_some_iff]
    simp only [bit, RelationKind.testBit_categoryBit, decide_eq_true_eq]
  · have hrelation := isRelation_of_isSome (t := t)
    generalize (RelationKind.ofTag? t).isSome = r at *
    generalize (NodeKind.ofTag? t).isSome = n at *
    generalize (LongKind.ofTag? t).isSome = l at *
    cases r <;> cases n <;> cases l <;> simp_all
  · rintro ⟨⟨k, hshort⟩, l, hl⟩
    refine not_isLong_of_classifyShort hshort ?_
    exact LongKind.isLong_iff.mpr ⟨l, Record.classifyLong_eq_ok_iff.mp hl⟩
  · intro hrelation
    rw [← Option.not_isSome_iff_eq_none, ← Option.not_isSome_iff_eq_none]
    exact ⟨fun h => hnode h hrelation, fun h => hlong h hrelation⟩

end Tag

end ProvenanceRelay
