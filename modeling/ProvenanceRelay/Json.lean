import ProvenanceRelay.Text.Numeral

/-!
JSON values and their compact text.

The text is produced in pieces, one for each mark, key, number or run of plain characters, since
a writer hands the pieces on one at a time. `compact` joins them.
-/

namespace ProvenanceRelay

inductive Json where
  | null
  | bool (b : Bool)
  | int (n : Int)
  | string (s : String)
  | array (elements : List Json)
  | object (fields : List (String × Json))
  deriving Inhabited

namespace Json

def nat (n : Nat) : Json := .int n

def ofString? : Option String → Json
  | none => .null
  | some s => .string s

def ofNat? : Option Nat → Json
  | none => .null
  | some n => .nat n

def strings (xs : List String) : Json := .array (xs.map .string)

/-! ### Text -/

/-- How a character is written if it cannot stand for itself: the quote, the backslash and the
control characters. -/
def escape? (c : Char) : Option String :=
  if c = '"' then some "\\\""
  else if c = '\\' then some "\\\\"
  else if c.toNat = 0x8 then some "\\b"
  else if c.toNat = 0x9 then some "\\t"
  else if c.toNat = 0xA then some "\\n"
  else if c.toNat = 0xC then some "\\f"
  else if c.toNat = 0xD then some "\\r"
  else if c.toNat < 0x20 then some ("\\u" ++ Text.Numeral.padLeft 4 (Text.Numeral.hex c.toNat))
  else none

def isPlain (c : Char) : Bool := (escape? c).isNone

/-- The runs of plain characters of a text, and its escapes between them. -/
def runs : List Char → List String
  | [] => []
  | c :: cs =>
    match escape? c with
    | some e => e :: runs cs
    | none => String.ofList (c :: cs.takeWhile isPlain) :: runs (cs.dropWhile isPlain)
termination_by cs => cs.length
decreasing_by
  · simp
  · have h : (cs.dropWhile isPlain).length ≤ cs.length := (List.dropWhile_sublist isPlain).length_le
    simp only [List.length_cons]
    omega

def stringPieces (s : String) : List String := "\"" :: (runs s.toList ++ ["\""])

mutual

def pieces : Json → List String
  | .null => ["null"]
  | .bool b => [if b then "true" else "false"]
  | .int n => [toString n]
  | .string s => stringPieces s
  | .array elements => "[" :: elementPieces elements
  | .object fields => "\x7b" :: fieldPieces fields

/-- The elements of an array from the first on, and its closing bracket. -/
def elementPieces : List Json → List String
  | [] => ["]"]
  | x :: xs => pieces x ++ moreElementPieces xs

def moreElementPieces : List Json → List String
  | [] => ["]"]
  | x :: xs => "," :: (pieces x ++ moreElementPieces xs)

/-- The members of an object from the first on, and its closing brace. -/
def fieldPieces : List (String × Json) → List String
  | [] => ["\x7d"]
  | (k, v) :: rest => stringPieces k ++ ":" :: (pieces v ++ moreFieldPieces rest)

def moreFieldPieces : List (String × Json) → List String
  | [] => ["\x7d"]
  | (k, v) :: rest => "," :: (stringPieces k ++ ":" :: (pieces v ++ moreFieldPieces rest))

end

/-- The text without any blank. -/
def compact (j : Json) : String := String.join (pieces j)

end Json

end ProvenanceRelay
