import ProvenanceRelay.Net.Address

/-!
Reading an internet address.

The four bytes of the older kind have no leading zeros. The newer kind has eight groups of at most
four digits, or fewer with `::` in one place, and its last two groups may be written as an address
of the older kind, except in front of `::`.
-/

namespace ProvenanceRelay.Net

inductive IpAddress where
  | v4 (ip : Ipv4)
  | v6 (ip : Ipv6)
  deriving DecidableEq, Repr

namespace IpAddress

/-- The value of a digit in a base of at most sixteen. -/
def digit? (base : Nat) (c : Char) : Option Nat :=
  let d :=
    if '0' ≤ c ∧ c ≤ '9' then some (c.toNat - '0'.toNat)
    else if 'a' ≤ c ∧ c ≤ 'f' then some (c.toNat - 'a'.toNat + 10)
    else if 'A' ≤ c ∧ c ≤ 'F' then some (c.toNat - 'A'.toNat + 10)
    else none
  d.filter (· < base)

def isDigit (base : Nat) (c : Char) : Bool := (digit? base c).isSome

/-- All digits that the text starts with, one to `width` of them. -/
def number? (base width : Nat) (cs : List Char) : Option (Nat × List Char) :=
  let ds := cs.takeWhile (isDigit base)
  if ds.isEmpty ∨ width < ds.length then none
  else some ((ds.filterMap (digit? base)).foldl (· * base + ·) 0, cs.dropWhile (isDigit base))

def byte? (cs : List Char) : Option (Nat × List Char) := do
  let (n, rest) ← number? 10 3 cs
  if n < 256 ∧ ¬ (cs.head? = some '0' ∧ cs.length ≠ rest.length + 1) then some (n, rest) else none

def mark? (c : Char) : List Char → Option (List Char)
  | [] => none
  | d :: ds => if d = c then some ds else none

/-- An address of the older kind at the start of the text. -/
def v4? (cs : List Char) : Option (List Nat × List Char) := do
  let (a, cs) ← byte? cs
  let (b, cs) ← byte? (← mark? '.' cs)
  let (c, cs) ← byte? (← mark? '.' cs)
  let (d, cs) ← byte? (← mark? '.' cs)
  some ([a, b, c, d], cs)

/-- Up to `room` groups, all but the first after a colon; the last two may be an address of the
older kind, which is told by the flag. -/
def groups : Nat → Bool → List Char → List Nat × Bool × List Char
  | 0, _, cs => ([], false, cs)
  | room + 1, first, cs =>
    let start := if first then some cs else mark? ':' cs
    match if room = 0 then none else start.bind v4? with
    | some ([a, b, c, d], rest) => ([a * 256 + b, c * 256 + d], true, rest)
    | _ =>
      match start.bind (number? 16 4) with
      | none => ([], false, cs)
      | some (g, rest) =>
        let (gs, dotted, rest) := groups room false rest
        (g :: gs, dotted, rest)

def v6? (cs : List Char) : Option (Ipv6 × List Char) :=
  let (head, dotted, rest) := groups 8 true cs
  if head.length = 8 then some (.ofGroups head, rest)
  else if dotted then none
  else do
    let rest ← mark? ':' (← mark? ':' rest)
    let (tail, _, rest) := groups (7 - head.length) true rest
    some (.ofGroups (head ++ List.replicate (8 - head.length - tail.length) 0 ++ tail), rest)

def parse? (s : String) : Option IpAddress :=
  match v4? s.toList with
  | some ([a, b, c, d], []) => some (.v4 (.ofBytes a b c d))
  | _ =>
    match v6? s.toList with
    | some (ip, []) => some (.v6 ip)
    | _ => none

end IpAddress

end ProvenanceRelay.Net
