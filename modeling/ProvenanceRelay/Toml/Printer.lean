import ProvenanceRelay.Toml.Value
import ProvenanceRelay.Text.Numeral

/-!
Writing TOML.

A string is written in the first of these forms that fits: between double quotes if nothing needs
an escape; between single quotes; the same over several lines; and with escapes otherwise. An
array of two or more elements has a line for each. An integer beyond 64 bits with a sign is not
written, and neither is a string with a run of quotes whose length does not fit in a byte.
-/

namespace ProvenanceRelay.Toml

/-! ### Strings -/

def longestRun (q : Char) : Nat → List Char → Nat
  | n, [] => n
  | n, c :: cs => if c = q then longestRun q (n + 1) cs else max n (longestRun q 0 cs)

/-- A control character other than the tab and the line end. -/
def needsEscape (c : Char) : Bool :=
  (c.toNat < 0x20 && c ≠ '\t' && c ≠ '\n') || c.toNat = 0x7F

def escapeText (c : Char) : String :=
  if c.toNat = 0x8 then "\\b"
  else if c = '\t' then "\\t"
  else if c = '\n' then "\\n"
  else if c.toNat = 0xC then "\\f"
  else if c = '\r' then "\\r"
  else if c = '"' then "\\\""
  else if c = '\\' then "\\\\"
  else "\\u" ++ Text.Numeral.padLeft 4 (String.ofList ((Nat.toDigits 16 c.toNat).map Char.toUpper))

/-- The longest run of quotes of one kind that is written. -/
def maxQuotes : Nat := 255

def quotable (s : String) : Bool :=
  longestRun '"' 0 s.toList ≤ maxQuotes && longestRun '\'' 0 s.toList ≤ maxQuotes

/-- The body of a basic string. On several lines, line ends stand for themselves, and so do up to
two double quotes in a row; `quotes` of them have just been written. -/
def basicBody (multi : Bool) : Nat → List Char → String
  | _, [] => ""
  | quotes, c :: cs =>
    if c = '"' then
      if multi ∧ quotes < 2 then "\"" ++ basicBody multi (quotes + 1) cs
      else "\\\"" ++ basicBody multi 0 cs
    else if c = '\n' ∧ multi then "\n" ++ basicBody multi 0 cs
    else if needsEscape c ∨ c = '\t' ∨ c = '\n' ∨ c = '\\' then
      escapeText c ++ basicBody multi 0 cs
    else c.toString ++ basicBody multi 0 cs

/-- The two forms of a string on one line and the two on several. -/
inductive Form where
  | basic
  | literal
  | multiBasic
  | multiLiteral
  deriving DecidableEq, Repr

/-- The form in which a string is written. -/
def form (cs : List Char) : Form :=
  let coded := cs.any needsEscape
  let backslash := cs.contains '\\'
  let lines := cs.contains '\n'
  let doubles := longestRun '"' 0 cs
  let singles := longestRun '\'' 0 cs
  if !coded ∧ !backslash ∧ doubles = 0 ∧ !lines then .basic
  else if !coded ∧ singles = 0 ∧ !lines then .literal
  else if !coded ∧ !backslash ∧ doubles ≤ 2 then .multiBasic
  else if !coded ∧ singles ≤ 2 then .multiLiteral
  else if lines then .multiBasic
  else .basic

def stringText (s : String) : String :=
  let cs := s.toList
  let first := if cs.contains '\n' then "\n" else ""
  match form cs with
  | .basic => "\"" ++ basicBody false 0 cs ++ "\""
  | .literal => "'" ++ s ++ "'"
  | .multiBasic => "\"\"\"" ++ first ++ basicBody true 0 cs ++ "\"\"\""
  | .multiLiteral => "'''" ++ first ++ s ++ "'''"

/-! ### Settings -/

/-- The values that settings have. -/
inductive Setting where
  | string (s : String)
  | strings (xs : List String)
  | integer (n : Nat)
  | boolean (b : Bool)

namespace Setting

def toValue : Setting → Value
  | string s => .string s
  | strings xs => .array (xs.map .string)
  | integer n => .integer n
  | boolean b => .boolean b

/-- Whether an integer fits in 64 bits with a sign. -/
def fits : Setting → Bool
  | integer n => (n : Int) ≤ maxInteger
  | _ => true

/-- Whether the runs of quotes in strings can be written. -/
def quotable : Setting → Bool
  | string s => Toml.quotable s
  | strings xs => xs.all Toml.quotable
  | _ => true

def text : Setting → String
  | string s => stringText s
  | strings [] => "[]"
  | strings [x] => "[" ++ stringText x ++ "]"
  | strings xs => "[\n" ++ String.join (xs.map fun x => "    " ++ stringText x ++ ",\n") ++ "]"
  | integer n => Text.Numeral.decimal n
  | boolean b => if b then "true" else "false"

end Setting

/-- A named table of settings. -/
structure Section where
  name : String
  settings : List (String × Setting)

namespace Section

def text (s : Section) : String :=
  "[" ++ s.name ++ "]\n" ++
    String.join (s.settings.map fun (k, v) => k ++ " = " ++ v.text ++ "\n")

def fits (s : Section) : Bool := s.settings.all (·.2.fits)

def quotable (s : Section) : Bool := s.settings.all (·.2.quotable)

end Section

/-- Why tables cannot be written. -/
inductive PrintFault where
  | integer
  | quotes
  deriving DecidableEq, Repr

/-- The text of the tables, an empty line between them, if all their settings can be written. -/
def print (sections : List Section) : Except PrintFault String :=
  if ¬ sections.all (·.fits) then .error .integer
  else if ¬ sections.all (·.quotable) then .error .quotes
  else .ok ("\n".intercalate (sections.map (·.text)))

end ProvenanceRelay.Toml
