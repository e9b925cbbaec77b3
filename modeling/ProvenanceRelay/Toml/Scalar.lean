import ProvenanceRelay.Toml.Lexeme
import ProvenanceRelay.Toml.Value

/-!
TOML numbers, truth values and dates.

A scalar is read from all the characters that could belong to one, so that nothing may follow it
directly. An integer has 64 bits, and a floating-point number must not round to infinity.
-/

namespace ProvenanceRelay.Toml

def isDecimal (c : Char) : Bool := '0' ≤ c && c ≤ '9'

def digitsValue (base : Nat) (ds : List Char) : Nat :=
  (ds.filterMap hexDigit?).foldl (fun v d => v * base + d) 0

/-- Digits with single underscores between them, without the underscores. -/
def digits? (ok : Char → Bool) : List Char → Option (List Char)
  | [] => none
  | [c] => if ok c then some [c] else none
  | c :: '_' :: cs => if ok c then (digits? ok cs).map (c :: ·) else none
  | c :: cs => if ok c then (digits? ok cs).map (c :: ·) else none

/-- Digits of a number that has no superfluous zero in front. -/
def plainDigits? (cs : List Char) : Option (List Char) :=
  match cs with
  | '0' :: _ :: _ => none
  | _ => digits? isDecimal cs

def signed : List Char → Bool × List Char
  | '-' :: cs => (true, cs)
  | '+' :: cs => (false, cs)
  | cs => (false, cs)

/-- A number within the 64 bits of an integer. -/
def inRange? (n : Int) : Option Int :=
  if minInteger ≤ n ∧ n ≤ maxInteger then some n else none

def based? (base : Nat) (ok : Char → Bool) (cs : List Char) : Option Int :=
  (digits? ok cs).bind fun ds => inRange? (digitsValue base ds)

def integer? : List Char → Option Int
  | '0' :: 'x' :: cs => based? 16 (fun c => (hexDigit? c).isSome) cs
  | '0' :: 'o' :: cs => based? 8 (fun c => '0' ≤ c && c ≤ '7') cs
  | '0' :: 'b' :: cs => based? 2 (fun c => c = '0' || c = '1') cs
  | cs =>
    let (negative, ds) := signed cs
    (plainDigits? ds).bind fun ds =>
      let n : Int := digitsValue 10 ds
      inRange? (if negative then -n else n)

/-! ### Floating-point numbers -/

/-- The least value that rounds to infinity in a double: halfway from the greatest finite value
to the next power of two. -/
def overflow : Nat := 1 <<< 1024 - 1 <<< 970

/-- Whether a value with these decimal digits, times the power of ten, rounds to infinity. -/
def roundsToInfinity (ds : List Char) (exponent : Int) : Bool :=
  let ds := ds.dropWhile (· = '0')
  let order : Int := ds.length + exponent
  if ds.isEmpty ∨ order ≤ 300 then false
  else if 320 < order then true
  else if 0 ≤ exponent then overflow ≤ digitsValue 10 ds * Nat.pow 10 exponent.toNat
  else overflow * Nat.pow 10 (-exponent).toNat ≤ digitsValue 10 ds

/-- The exponent behind its letter, or zero if the number ends. -/
def exponent? : List Char → Option Int
  | [] => some 0
  | e :: cs =>
    if e = 'e' ∨ e = 'E' then
      let (negative, ds) := signed cs
      (digits? isDecimal ds).map fun ds =>
        let n : Int := digitsValue 10 ds
        if negative then -n else n
    else none

def isNumeral (c : Char) : Bool := isDecimal c || c = '_'

/-- Whether the parts make a number that stays finite, or falls to negative infinity. -/
def isFinite (negative : Bool) (whole : List Char) (fraction : Option (List Char))
    (rest : List Char) : Option Bool := do
  let ds ← plainDigits? whole
  let fs ← fraction.elim (some []) (digits? isDecimal)
  let e ← exponent? rest
  return negative || !roundsToInfinity (ds ++ fs) (e - fs.length)

/-- A number with a fraction, an exponent or both, which does not round to positive infinity. -/
def isFloat (cs : List Char) : Bool :=
  let (negative, body) := signed cs
  let whole := body.takeWhile isNumeral
  match body.dropWhile isNumeral with
  | [] => false
  | '.' :: rest =>
    isFinite negative whole (some (rest.takeWhile isNumeral)) (rest.dropWhile isNumeral) ==
      some true
  | rest => isFinite negative whole none rest == some true

def isSpecialFloat (cs : List Char) : Bool :=
  let name := (signed cs).2
  name = ['i', 'n', 'f'] || name = ['n', 'a', 'n']

/-! ### Dates -/

/-- A number of exactly `width` digits, and the rest. -/
def fixed? (width : Nat) (cs : List Char) : Option (Nat × List Char) :=
  let ds := cs.take width
  if ds.length = width ∧ ds.all isDecimal then some (digitsValue 10 ds, cs.drop width) else none

def expect? (c : Char) : List Char → Option (List Char)
  | [] => none
  | d :: ds => if d = c then some ds else none

def daysIn (year month : Nat) : Nat :=
  let leap := year % 4 = 0 ∧ (year % 100 ≠ 0 ∨ year % 400 = 0)
  if month = 2 then if leap then 29 else 28
  else if month = 4 ∨ month = 6 ∨ month = 9 ∨ month = 11 then 30
  else 31

def date? (cs : List Char) : Option (List Char) := do
  let (year, cs) ← fixed? 4 cs
  let (month, cs) ← fixed? 2 (← expect? '-' cs)
  let (day, cs) ← fixed? 2 (← expect? '-' cs)
  if 1 ≤ month ∧ month ≤ 12 ∧ 1 ≤ day ∧ day ≤ daysIn year month then some cs else none

/-- The digits of a second's fraction, at least one of them, if there is a point. -/
def fraction? : List Char → Option (List Char)
  | '.' :: cs => if cs.head?.any isDecimal then some (cs.dropWhile isDecimal) else none
  | cs => some cs

def clock? (cs : List Char) : Option (List Char) := do
  let (hour, cs) ← fixed? 2 cs
  let (minute, cs) ← fixed? 2 (← expect? ':' cs)
  let (second, cs) ← fixed? 2 (← expect? ':' cs)
  if hour ≤ 23 ∧ minute ≤ 59 ∧ second ≤ 60 then fraction? cs else none

/-- Whether the text is empty or an offset from universal time. -/
def isOffset : List Char → Bool
  | [] => true
  | ['Z'] => true
  | ['z'] => true
  | c :: cs =>
    (c = '+' || c = '-') &&
      ((do
        let (hour, cs) ← fixed? 2 cs
        let (minute, cs) ← fixed? 2 (← expect? ':' cs)
        return hour ≤ 23 ∧ minute ≤ 59 ∧ cs = []) : Option Bool) == some true

/-- A date, a time of day, or both; with both, there may be an offset. -/
def isDatetime (cs : List Char) : Bool :=
  match date? cs with
  | some [] => true
  | some (c :: cs) => (c = 'T' || c = 't' || c = ' ') && (clock? cs).any isOffset
  | none => clock? cs = some []

/-! ### All of them -/

def isScalarChar (c : Char) : Bool := isBareKey c || c = '+' || c = '.' || c = ':'

/-- The characters of a scalar, and the rest. A blank inside a date that a digit follows belongs to
it. -/
def scalarText (cs : Text) : List Char × Text :=
  let first := cs.takeWhile isScalarChar
  let rest := cs.dropWhile isScalarChar
  match rest with
  | ' ' :: more =>
    if date? first = some [] ∧ more.head?.any isDecimal then
      (first ++ ' ' :: more.takeWhile isScalarChar, more.dropWhile isScalarChar)
    else (first, rest)
  | _ => (first, rest)

def scalar? (cs : Text) : Option (Value × Text) :=
  let (token, rest) := scalarText cs
  let value : Option Value :=
    if token = ['t', 'r', 'u', 'e'] then some (.boolean true)
    else if token = ['f', 'a', 'l', 's', 'e'] then some (.boolean false)
    else if isSpecialFloat token then some (.float (String.ofList token))
    else
      match integer? token with
      | some n => some (.integer n)
      | none =>
        if isDatetime token then some (.datetime (String.ofList token))
        else if isFloat token then some (.float (String.ofList token))
        else none
  value.map fun v => (v, rest)

end ProvenanceRelay.Toml
