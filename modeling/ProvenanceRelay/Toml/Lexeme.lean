/-!
The characters of a TOML text: blanks, comments, line ends, strings and keys.

Every function takes the text from where it stands and returns what it has read with the rest of
the text. A string on one line ends with its quote; one on several lines ends with three, and may
have up to two more in front of them.
-/

namespace ProvenanceRelay.Toml

abbrev Text := List Char

def isSpace (c : Char) : Bool := c = ' ' || c = '\t'

/-- The characters that stand for themselves: no control characters but the tab. -/
def isPrintable (c : Char) : Bool := c = '\t' || (0x20 ≤ c.toNat && c.toNat ≠ 0x7F)

def skipSpace (cs : Text) : Text := cs.dropWhile isSpace

def newline? : Text → Option Text
  | '\n' :: cs => some cs
  | '\r' :: '\n' :: cs => some cs
  | _ => none

/-- Passes over a comment, up to the end of its line. -/
def skipComment : Text → Text
  | '#' :: cs => cs.dropWhile isPrintable
  | cs => cs

/-- The end of a line: blanks, a comment, and a line end or the end of the text. -/
def lineEnd? (cs : Text) : Option Text :=
  match skipComment (skipSpace cs) with
  | [] => some []
  | rest => newline? rest

/-- Blanks, line ends and whole comment lines, as between the elements of an array. -/
def skipLayout : Nat → Text → Option Text
  | 0, cs => some cs
  | n + 1, cs =>
    match skipSpace cs with
    | [] => some []
    | '#' :: rest => (newline? (rest.dropWhile isPrintable)).bind (skipLayout n)
    | '\n' :: rest => skipLayout n rest
    | '\r' :: rest => (newline? ('\r' :: rest)).bind (skipLayout n)
    | rest => some rest

/-! ### Strings -/

def hexDigit? (c : Char) : Option Nat :=
  if '0' ≤ c ∧ c ≤ '9' then some (c.toNat - '0'.toNat)
  else if 'a' ≤ c ∧ c ≤ 'f' then some (c.toNat - 'a'.toNat + 10)
  else if 'A' ≤ c ∧ c ≤ 'F' then some (c.toNat - 'A'.toNat + 10)
  else none

/-- The character with the number that the hexadecimal digits tell. -/
def codePoint? (ds : List Char) : Option Char := do
  let ns ← ds.mapM hexDigit?
  let n := ns.foldl (fun v d => v * 16 + d) 0
  if n.isValidChar then some (Char.ofNat n) else none

/-- What a backslash and one more letter stand for. -/
def shortEscape? : Char → Option Char
  | 'b' => some '\x08'
  | 't' => some '\t'
  | 'n' => some '\n'
  | 'f' => some '\x0C'
  | 'r' => some '\r'
  | '"' => some '"'
  | '\\' => some '\\'
  | _ => none

def prepend (c : Char) (r : Option (List Char × Text)) : Option (List Char × Text) :=
  r.map fun (s, rest) => (c :: s, rest)

/-- The rest of a basic string on one line. -/
def basic? : Text → Option (List Char × Text)
  | [] => none
  | '"' :: cs => some ([], cs)
  | '\\' :: 'u' :: a :: b :: c :: d :: cs =>
    (codePoint? [a, b, c, d]).bind fun x => prepend x (basic? cs)
  | '\\' :: 'U' :: a :: b :: c :: d :: e :: f :: g :: h :: cs =>
    (codePoint? [a, b, c, d, e, f, g, h]).bind fun x => prepend x (basic? cs)
  | '\\' :: e :: cs => (shortEscape? e).bind fun x => prepend x (basic? cs)
  | c :: cs => if isPrintable c ∧ c ≠ '\\' then prepend c (basic? cs) else none

def literal? : Text → Option (List Char × Text)
  | [] => none
  | '\'' :: cs => some ([], cs)
  | c :: cs => if isPrintable c then prepend c (literal? cs) else none

/-- The quotes that may stand in front of the closing three, and the rest after all of them. -/
def closing (q : Char) : Text → List Char × Text
  | a :: b :: cs =>
    if a = q then if b = q then ([q, q], cs) else ([q], b :: cs) else ([], a :: b :: cs)
  | [a] => if a = q then ([q], []) else ([], [a])
  | [] => ([], [])

/-- Whether nothing but blanks stands before the end of the line. -/
def isLineRest (cs : Text) : Bool := (newline? (skipSpace cs)).isSome

/-- The rest of a basic string on several lines. While `joining`, blanks and line ends are passed
over. -/
def multiBasic? : Bool → Text → Option (List Char × Text)
  | _, [] => none
  | true, ' ' :: cs => multiBasic? true cs
  | true, '\t' :: cs => multiBasic? true cs
  | true, '\n' :: cs => multiBasic? true cs
  | true, '\r' :: '\n' :: cs => multiBasic? true cs
  | _, '"' :: '"' :: '"' :: cs => some (closing '"' cs)
  | _, '\\' :: 'u' :: a :: b :: c :: d :: cs =>
    (codePoint? [a, b, c, d]).bind fun x => prepend x (multiBasic? false cs)
  | _, '\\' :: 'U' :: a :: b :: c :: d :: e :: f :: g :: h :: cs =>
    (codePoint? [a, b, c, d, e, f, g, h]).bind fun x => prepend x (multiBasic? false cs)
  | _, '\\' :: e :: cs =>
    if isLineRest (e :: cs) then multiBasic? true (e :: cs)
    else (shortEscape? e).bind fun x => prepend x (multiBasic? false cs)
  | _, '\r' :: '\n' :: cs => prepend '\n' (multiBasic? false cs)
  | _, c :: cs =>
    if (isPrintable c ∧ c ≠ '\\') ∨ c = '\n' then prepend c (multiBasic? false cs) else none

/-- The rest of a literal string on several lines. -/
def multiLiteral? : Text → Option (List Char × Text)
  | [] => none
  | '\'' :: '\'' :: '\'' :: cs => some (closing '\'' cs)
  | '\r' :: '\n' :: cs => prepend '\n' (multiLiteral? cs)
  | c :: cs => if isPrintable c ∨ c = '\n' then prepend c (multiLiteral? cs) else none

/-- Drops the line end that may follow the opening quotes of a string on several lines. -/
def dropFirstNewline (cs : Text) : Text := (newline? cs).getD cs

def string? : Text → Option (List Char × Text)
  | '"' :: '"' :: '"' :: cs => multiBasic? false (dropFirstNewline cs)
  | '"' :: cs => basic? cs
  | '\'' :: '\'' :: '\'' :: cs => multiLiteral? (dropFirstNewline cs)
  | '\'' :: cs => literal? cs
  | _ => none

/-! ### Keys -/

def isBareKey (c : Char) : Bool :=
  ('a' ≤ c && c ≤ 'z') || ('A' ≤ c && c ≤ 'Z') || ('0' ≤ c && c ≤ '9') || c = '_' || c = '-'

def simpleKey? : Text → Option (String × Text)
  | '"' :: cs => (basic? cs).map fun (s, rest) => (String.ofList s, rest)
  | '\'' :: cs => (literal? cs).map fun (s, rest) => (String.ofList s, rest)
  | cs =>
    let key := cs.takeWhile isBareKey
    if key.isEmpty then none else some (String.ofList key, cs.dropWhile isBareKey)

/-- How many levels a document may have: of arrays and inline tables in one another, and of keys
in one path. -/
def maxDepth : Nat := 79

/-- At most so many simple keys between dots, each with blanks around it. -/
def keyPath? : Nat → Text → Option (List String × Text)
  | 0, _ => none
  | n + 1, cs => do
    let (k, cs) ← simpleKey? (skipSpace cs)
    match skipSpace cs with
    | '.' :: rest => (keyPath? n rest).map fun (ks, rest) => (k :: ks, rest)
    | rest => some ([k], rest)

end ProvenanceRelay.Toml
