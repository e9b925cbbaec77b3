import ProvenanceRelay.Files
import ProvenanceRelay.Record.Basic

/-!
Keeping the relay itself out of the records.

A request in the shape of a short record, written into a file that stands for the writer, makes a
process opaque.
-/

namespace ProvenanceRelay.Exclusion

def opaqueFlag : Nat := 2

/-- The code that asks for the flag to be set. -/
def setOpaque : UInt8 := 2

/-- The request: the flag behind the identifier, and the code behind a record's size. -/
def request : Bytes :=
  List.replicate Identifier.size 0 ++ Bytes.toLE 4 opaqueFlag ++
    List.replicate (Shape.short.size - Identifier.size - 4) 0 ++
    setOpaque :: List.replicate 7 0

def apply (path : Option String) (fs : Files) : Except SystemError Files :=
  match path with
  | none => .ok fs
  | some path => fs.overwrite path request

end ProvenanceRelay.Exclusion
