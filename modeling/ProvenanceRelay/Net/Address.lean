import ProvenanceRelay.Text.Numeral

/-!
Internet addresses and their text.

An address of the older kind is four decimal bytes. One of the newer kind is eight hexadecimal
groups, of which the first longest run of two or more zero groups is left out.
-/

namespace ProvenanceRelay.Net

open Text

abbrev Ipv4 := UInt32

abbrev Ipv6 := BitVec 128

/-- An address and a port; the newer kind also has a flow label and a scope. -/
inductive SocketAddress where
  | v4 (ip : Ipv4) (port : UInt16)
  | v6 (ip : Ipv6) (port : UInt16) (flow scope : UInt32)
  deriving DecidableEq, Repr

namespace Ipv4

def ofBytes (a b c d : Nat) : Ipv4 := UInt32.ofNat (((a * 256 + b) * 256 + c) * 256 + d)

def text (ip : Ipv4) : String :=
  let byte (i : Nat) := Numeral.decimal (ip.toNat >>> (8 * i) % 256)
  ".".intercalate [byte 3, byte 2, byte 1, byte 0]

end Ipv4

namespace Ipv6

/-- The eight groups of sixteen bits, the highest first. -/
def groups (ip : Ipv6) : List Nat :=
  (List.range 8).map fun i => ip.toNat >>> (16 * (7 - i)) % 65536

def ofGroups (gs : List Nat) : Ipv6 := BitVec.ofNat 128 (gs.foldl (fun n g => n * 65536 + g) 0)

def zeros (gs : List Nat) : Nat := (gs.takeWhile (· = 0)).length

/-- Where the first longest run of zeros starts, and its length; the start is counted from `at_`. -/
def longestZeros : Nat → List Nat → Nat × Nat
  | at_, [] => (at_, 0)
  | at_, g :: gs =>
    let later := longestZeros (at_ + 1) gs
    if later.2 ≤ zeros (g :: gs) then (at_, zeros (g :: gs)) else later

def groupsText (gs : List Nat) : String := ":".intercalate (gs.map Numeral.hex)

/-- The older address that this one carries in its low 32 bits, below the group ffff. -/
def mapped? (ip : Ipv6) : Option Ipv4 :=
  if ip.toNat >>> 32 = 0xFFFF then some (UInt32.ofNat ip.toNat) else none

def text (ip : Ipv6) : String :=
  match mapped? ip with
  | some v4 => "::ffff:" ++ v4.text
  | none =>
    let gs := groups ip
    let (start, len) := longestZeros 0 gs
    if len ≤ 1 then groupsText gs
    else groupsText (gs.take start) ++ "::" ++ groupsText (gs.drop (start + len))

end Ipv6

/-- The address and the port; a newer address stands in brackets, with its scope unless zero. -/
def SocketAddress.text : SocketAddress → String
  | .v4 ip port => ip.text ++ ":" ++ Numeral.decimal port.toNat
  | .v6 ip port _ scope =>
    let zone := if scope = 0 then "" else "%" ++ Numeral.decimal scope.toNat
    "[" ++ ip.text ++ zone ++ "]:" ++ Numeral.decimal port.toNat

end ProvenanceRelay.Net
