import ProvenanceRelay.Bytes
import ProvenanceRelay.SystemError
import ProvenanceRelay.Text.Utf8

/-!
A file system: what is found along each path.

A path is followed name by name, from the root if it starts with a slash and from the working
directory otherwise, and every name but the last has to be that of a directory. A path is a text
without a zero character, of less than 4096 bytes.
-/

namespace ProvenanceRelay

/-- What takes writes like a file and holds nothing. -/
inductive Device where
  | null
  /-- Has no room for anything. -/
  | full
  /-- The standard output of whoever writes. -/
  | output
  /-- The standard error of whoever writes. -/
  | errors
  deriving DecidableEq, Repr

inductive Entry where
  | file (content : Bytes)
  | directory
  | device (d : Device)
  deriving DecidableEq, Repr

/-- The names on the way from the root. -/
abbrev Place := List String

structure Files where
  /-- The place that relative paths start from. -/
  workingDirectory : Place := []
  entries : List (Place × Entry) := []

namespace Files

/-- The parts of a text between its slashes. -/
def split : List Char → List (List Char)
  | [] => [[]]
  | c :: cs =>
    if c = '/' then [] :: split cs
    else
      match split cs with
      | [] => [[c]]
      | n :: ns => (c :: n) :: ns

/-- What is at a place. The root is always there. -/
def lookup (fs : Files) : Place → Option Entry
  | [] => some .directory
  | p => fs.entries.lookup p

def maxName : Nat := 255

/-- Follows names from a place, each in the directory that the names before it lead to. -/
def follow (fs : Files) (here : Place) : List String → Except SystemError Place
  | [] => .ok here
  | n :: ns =>
    match fs.lookup here with
    | none => .error .notFound
    | some (.file _) | some (.device _) => .error .notDirectory
    | some .directory =>
      if n = "" ∨ n = "." then fs.follow here ns
      else if n = ".." then fs.follow here.dropLast ns
      else if maxName < n.utf8ByteSize then .error .nameTooLong
      else fs.follow (here ++ [n]) ns

def maxPath : Nat := 4095

/-- What is wrong with a path, wherever it leads. -/
def check (path : String) : Except SystemError Unit :=
  if '\x00' ∈ path.toList then .error .zeroInPath
  else if maxPath < path.utf8ByteSize then .error .nameTooLong
  else .ok ()

/-- The place that a path leads to, which may be vacant. -/
def locate (fs : Files) (path : String) : Except SystemError Place := do
  check path
  match path.toList with
  | [] => .error .notFound
  | '/' :: cs => fs.follow [] ((split cs).map String.ofList)
  | cs => fs.follow fs.workingDirectory ((split cs).map String.ofList)

def find (fs : Files) (path : String) : Except SystemError Entry := do
  match fs.lookup (← fs.locate path) with
  | some e => .ok e
  | none => .error .notFound

def exists? (fs : Files) (path : String) : Bool := (fs.find path).toBool

def read (fs : Files) (path : String) : Except SystemError Bytes := do
  match ← fs.find path with
  | .file content => .ok content
  | .directory => .error .isDirectory
  | .device _ => .ok []

def device? (fs : Files) (path : String) : Option Device :=
  match fs.find path with
  | .ok (.device d) => some d
  | _ => none

def readText (fs : Files) (path : String) : Except SystemError String := do
  match Text.Utf8.decode? (← fs.read path) with
  | some s => .ok s
  | none => .error .notText

def without (p : Place) (es : List (Place × Entry)) : List (Place × Entry) :=
  es.filter fun e => e.1 ≠ p

def set (fs : Files) (p : Place) (e : Entry) : Files :=
  { fs with entries := (p, e) :: without p fs.entries }

/-- The place of a file to be written, which may be vacant. Only a directory has a path that ends
with a slash, and such a path is refused when the directory around it is reached. -/
def target (fs : Files) (path : String) : Except SystemError Place := do
  check path
  match path.toList.reverse with
  | '/' :: cs =>
    let around := ((cs.dropWhile (· = '/')).dropWhile (· ≠ '/')).reverse ++ ['.']
    let _ ← fs.locate (String.ofList around)
    .error .isDirectory
  | _ =>
    let p ← fs.locate path
    match fs.lookup p with
    | some .directory => .error .isDirectory
    | _ => .ok p

/-- Has the file at a place hold the content that its old content is changed to. A device keeps
none of it. -/
def modify (fs : Files) (p : Place) (f : Bytes → Bytes) : Except SystemError Files :=
  match fs.lookup p with
  | some (.device .full) => if f [] = [] then .ok fs else .error .noSpace
  | some (.device _) => .ok fs
  | some (.file old) => .ok (fs.set p (.file (f old)))
  | _ => .ok (fs.set p (.file (f [])))

/-- Gives a file new content, and makes the file if it is not there. -/
def write (fs : Files) (path : String) (content : Bytes) : Except SystemError Files := do
  fs.modify (← fs.target path) fun _ => content

/-- Adds to the end of a file, and makes the file if it is not there. -/
def append (fs : Files) (path : String) (content : Bytes) : Except SystemError Files := do
  fs.modify (← fs.target path) (· ++ content)

/-- Puts bytes over the beginning of a file that is there. -/
def overwrite (fs : Files) (path : String) (content : Bytes) : Except SystemError Files := do
  let _ ← fs.read path
  fs.modify (← fs.locate path) fun old => content ++ old.drop content.length

def remove (fs : Files) (path : String) : Except SystemError Files := do
  let p ← fs.locate path
  match fs.lookup p with
  | none => .error .notFound
  | some .directory => .error .isDirectory
  | some (.file _) | some (.device _) => return { fs with entries := without p fs.entries }

theorem lookup_without {p q : Place} (h : q ≠ p) (es : List (Place × Entry)) :
    (without p es).lookup q = es.lookup q := by
  induction es with
  | nil => rfl
  | cons e es ih =>
    obtain ⟨r, e⟩ := e
    by_cases hr : r = p
    · subst hr
      simpa [without, List.lookup_cons, beq_false_of_ne h] using ih
    · by_cases hq : q = r
      · simp [without, hr, hq]
      · simpa [without, hr, List.lookup_cons, beq_false_of_ne hq] using ih

theorem lookup_set (fs : Files) {p : Place} (e : Entry) (q : Place) (hp : p ≠ []) :
    (fs.set p e).lookup q = if q = p then some e else fs.lookup q := by
  cases q with
  | nil => simp [lookup, hp.symm]
  | cons n ns =>
    by_cases h : n :: ns = p
    · simp [lookup, set, h]
    · simp [lookup, set, h, List.lookup_cons, beq_false_of_ne h, lookup_without h]

end Files

end ProvenanceRelay
