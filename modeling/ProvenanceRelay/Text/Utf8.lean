import ProvenanceRelay.Bytes

/-!
UTF-8 read strictly and leniently.

`scan` cuts a byte list into characters and ill-formed parts, each part as long as a prefix of a
character can be. The strict reading refuses when there is an ill-formed part; the lenient one
puts one replacement character in its place.
-/

namespace ProvenanceRelay.Text.Utf8

/-- The first byte of a longer character: its value bits, how many bytes follow, and the range
of the first of them. -/
structure Lead where
  bits : Nat
  tails : Nat
  low : UInt8 := 0x80
  high : UInt8 := 0xBF

def lead? (b : UInt8) : Option Lead :=
  if b < 0x80 then some { bits := b.toNat, tails := 0 }
  else if b < 0xC2 then none
  else if b < 0xE0 then some { bits := b.toNat - 0xC0, tails := 1 }
  else if b = 0xE0 then some { bits := 0, tails := 2, low := 0xA0 }
  else if b = 0xED then some { bits := 0xD, tails := 2, high := 0x9F }
  else if b < 0xF0 then some { bits := b.toNat - 0xE0, tails := 2 }
  else if b = 0xF0 then some { bits := 0, tails := 3, low := 0x90 }
  else if b < 0xF4 then some { bits := b.toNat - 0xF0, tails := 3 }
  else if b = 0xF4 then some { bits := 4, tails := 3, high := 0x8F }
  else none

/-- Reads the bytes after a first byte, and stops before the first that cannot follow. -/
def tails : Nat → UInt8 → UInt8 → Nat → Bytes → Option Nat × Bytes
  | 0, _, _, value, bs => (some value, bs)
  | _ + 1, _, _, _, [] => (none, [])
  | n + 1, low, high, value, b :: bs =>
    if low ≤ b ∧ b ≤ high then tails n 0x80 0xBF (value * 64 + b.toNat % 64) bs
    else (none, b :: bs)

theorem length_tails_le (n : Nat) (low high : UInt8) (value : Nat) (bs : Bytes) :
    (tails n low high value bs).2.length ≤ bs.length := by
  fun_induction tails n low high value bs with
  | case1 => simp
  | case2 => simp
  | case3 _ _ _ _ _ _ _ ih => simp only [List.length_cons]; omega
  | case4 => simp

/-- The characters of a byte list in order, with `none` for each ill-formed part. -/
def scan : Bytes → List (Option Char)
  | [] => []
  | b :: bs =>
    match lead? b with
    | none => none :: scan bs
    | some l =>
      let r := tails l.tails l.low l.high l.bits bs
      r.1.map Char.ofNat :: scan r.2
termination_by bs => bs.length
decreasing_by
  · simp
  · have := length_tails_le l.tails l.low l.high l.bits bs
    simp only [List.length_cons]
    omega

/-- The text that the bytes encode, if they are well formed. -/
def decode? (bs : Bytes) : Option String := ((scan bs).mapM id).map String.ofList

/-- The text of the bytes, with U+FFFD for each ill-formed part. -/
def decodeLossy (bs : Bytes) : String := String.ofList ((scan bs).map (·.getD '\uFFFD'))

def encode (s : String) : Bytes := s.toList.flatMap String.utf8EncodeChar

/-- The string up to the first zero byte, or all of it. -/
def untilZero (bs : Bytes) : Bytes := bs.takeWhile (· ≠ 0)

end ProvenanceRelay.Text.Utf8
