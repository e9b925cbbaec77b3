/-!
Unsigned numerals.

`read` takes digits from the left and reports what it meets first: a character that is no digit,
or a value above the limit.
-/

namespace ProvenanceRelay.Text.Numeral

/-- Lower-case hexadecimal digits, unpadded. -/
def hex (n : Nat) : String := String.ofList (Nat.toDigits 16 n)

def decimal (n : Nat) : String := String.ofList (Nat.toDigits 10 n)

/-- Digits padded with zeros on the left to at least the given width. -/
def padLeft (width : Nat) (s : String) : String :=
  String.ofList (List.replicate (width - s.length) '0') ++ s

inductive Fault where
  | empty
  | invalidDigit
  | tooLarge
  deriving DecidableEq, Repr

def Fault.message : Fault → String
  | .empty => "cannot parse integer from empty string"
  | .invalidDigit => "invalid digit found in string"
  | .tooLarge => "number too large to fit in target type"

def digit? (c : Char) : Option Nat :=
  if '0' ≤ c ∧ c ≤ '9' then some (c.toNat - '0'.toNat) else none

def readDigits (max : Nat) : Nat → List Char → Except Fault Nat
  | n, [] => .ok n
  | n, c :: cs =>
    match digit? c with
    | none => .error .invalidDigit
    | some d => if n * 10 + d ≤ max then readDigits max (n * 10 + d) cs else .error .tooLarge

/-- A decimal numeral of at most `max`, with an optional plus sign and at least one digit. -/
def read (max : Nat) : List Char → Except Fault Nat
  | [] => .error .empty
  | ['+'] => .error .invalidDigit
  | '+' :: cs => readDigits max 0 cs
  | cs => readDigits max 0 cs

end ProvenanceRelay.Text.Numeral
