import ProvenanceRelay.Toml.Scalar

/-!
The lines of a TOML text.

A line names a table, adds a table to an array of tables, or gives a key its value. What the
lines mean together is not decided here. Arrays and inline tables nest less than 80 deep,
and a path has less than 80 keys.
-/

namespace ProvenanceRelay.Toml

inductive Line where
  | table (path : List String)
  | element (path : List String)
  | entry (path : List String) (value : Value)

/-! ### Tables under construction -/

/-- How a table has come about: from its own line or braces, from the path of another table, or
from a dotted key. -/
inductive Origin where
  | explicit
  | implicit
  | dotted
  deriving DecidableEq

inductive Node where
  | value (v : Value)
  | table (origin : Origin) (entries : List (String × Node))
  | tables (elements : List (Origin × List (String × Node)))

abbrev Entries := List (String × Node)

def replace (k : String) (n : Node) (es : Entries) : Entries :=
  es.map fun e => if e.1 = k then (k, n) else e

/-- Changes the table at the end of a path. Missing tables on the way are made; a dotted path does
not lead through a table that has a line of its own. -/
def descend (isDotted : Bool) (f : Origin → Entries → Option (Origin × Entries)) :
    List String → Origin → Entries → Option (Origin × Entries)
  | [], origin, es => f origin es
  | k :: ks, origin, es =>
    match es.lookup k with
    | none => do
      let (o, sub) ← descend isDotted f ks (if isDotted then .dotted else .implicit) []
      return (origin, es ++ [(k, .table o sub)])
    | some (.value _) => none
    | some (.table o sub) =>
      if isDotted ∧ o = .explicit then none
      else do
        let (o, sub) ← descend isDotted f ks o sub
        return (origin, replace k (.table o sub) es)
    | some (.tables ts) =>
      match ts.getLast? with
      | none => none
      | some (o, sub) => do
        let last ← descend isDotted f ks o sub
        return (origin, replace k (.tables (ts.dropLast ++ [last])) es)

/-- Gives a key that is still free its value. The tables of a dotted key must all come from dotted
keys. -/
def addEntry (path : List String) (v : Value) (origin : Origin) (es : Entries) :
    Option (Origin × Entries) :=
  match path.getLast? with
  | none => none
  | some k =>
    let put (o : Origin) (es : Entries) : Option (Origin × Entries) :=
      if (o = .dotted ↔ path.length = 1) ∨ (es.lookup k).isSome then none
      else some (o, es ++ [(k, .value v)])
    descend true put path.dropLast origin es

mutual

def Node.toValue : Node → Value
  | .value v => v
  | .table _ es => .table (entriesToValue es)
  | .tables ts => .array (tablesToValue ts)

def entriesToValue : List (String × Node) → List (String × Value)
  | [] => []
  | (k, n) :: es => (k, n.toValue) :: entriesToValue es

def tablesToValue : List (Origin × List (String × Node)) → List Value
  | [] => []
  | (_, es) :: ts => .table (entriesToValue es) :: tablesToValue ts

end

/-! ### Values -/

mutual

/-- A value, with room for `depth` more levels of nesting. -/
def value? : Nat → Nat → Text → Option (Value × Text)
  | 0, _, _ => none
  | _ + 1, _, [] => none
  | n + 1, depth, c :: cs =>
    if c = '"' ∨ c = '\'' then
      (string? (c :: cs)).map fun (s, rest) => (.string (String.ofList s), rest)
    else if c = '[' then
      match depth with
      | 0 => none
      | d + 1 => (elements? n d cs).map fun (vs, rest) => (.array vs, rest)
    else if c = '\x7b' then
      match depth with
      | 0 => none
      | d + 1 =>
        match skipSpace cs with
        | '\x7d' :: rest => some (.table [], rest)
        | rest =>
          (members? n d .explicit [] rest).map fun (es, rest) => (.table (entriesToValue es), rest)
    else scalar? (c :: cs)

/-- The elements of an array up to its closing bracket; a comma may follow the last. -/
def elements? : Nat → Nat → Text → Option (List Value × Text)
  | 0, _, _ => none
  | n + 1, depth, cs =>
    match skipLayout cs.length cs with
    | none => none
    | some (']' :: rest) => some ([], rest)
    | some rest =>
      match value? n depth rest with
      | none => none
      | some (v, rest) =>
        match skipLayout rest.length rest with
        | some (',' :: rest) => (elements? n depth rest).map fun (vs, rest) => (v :: vs, rest)
        | some (']' :: rest) => some ([v], rest)
        | _ => none

/-- The members of an inline table up to its closing brace. -/
def members? : Nat → Nat → Origin → Entries → Text → Option (Entries × Text)
  | 0, _, _, _, _ => none
  | n + 1, depth, origin, es, cs =>
    match keyPath? maxDepth cs with
    | some (path, '=' :: rest) =>
      match value? n depth (skipSpace rest) with
      | none => none
      | some (v, rest) =>
        match addEntry path v origin es with
        | none => none
        | some (origin, es) =>
          match skipSpace rest with
          | ',' :: rest => members? n depth origin es rest
          | '\x7d' :: rest => some (es, rest)
          | _ => none
    | _ => none

end

/-- Work enough for any value of a text: each character takes at most two steps. -/
def work (cs : Text) : Nat := 2 * cs.length + 2

/-! ### Lines -/

/-- The rest of a line that names a table, up to the closing bracket or brackets. -/
def header? (close : List Char) (cs : Text) : Option (List String × Text) := do
  let (path, rest) ← keyPath? maxDepth cs
  if rest.take close.length = close then some (path, rest.drop close.length) else none

def line? (cs : Text) : Option (Line × Text) :=
  match cs with
  | '[' :: '[' :: rest => (header? [']', ']'] rest).map fun (p, rest) => (.element p, rest)
  | '[' :: rest => (header? [']'] rest).map fun (p, rest) => (.table p, rest)
  | _ =>
    match keyPath? maxDepth cs with
    | some (path, '=' :: rest) =>
      (value? (work rest) maxDepth (skipSpace rest)).map fun (v, rest) => (.entry path v, rest)
    | _ => none

def linesFrom? : Nat → Text → Option (List Line)
  | 0, _ => none
  | n + 1, cs =>
    match lineEnd? cs with
    | some [] => some []
    | some rest => linesFrom? n rest
    | none => do
      let (l, rest) ← line? (skipSpace cs)
      match ← lineEnd? rest with
      | [] => return [l]
      | rest => return l :: (← linesFrom? n rest)

/-- The lines of a text, which may start with a byte order mark. -/
def lines? (cs : Text) : Option (List Line) :=
  let cs := if cs.head? = some '\uFEFF' then cs.drop 1 else cs
  linesFrom? (cs.length + 1) cs

end ProvenanceRelay.Toml
