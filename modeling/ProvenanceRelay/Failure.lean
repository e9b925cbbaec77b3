/-!
Why a command or the daemon has failed, told from the outside in.
-/

namespace ProvenanceRelay

/-- Messages, each of which is the cause of the one before it. -/
abbrev Failure := List String

namespace Failure

def text (f : Failure) : String := ": ".intercalate f

def headline (f : Failure) : String := f.headD ""

def report : Failure → String
  | [] => "Error: "
  | [m] => "Error: " ++ m
  | [m, cause] => "Error: " ++ m ++ "\n\nCaused by:\n    " ++ cause
  | m :: causes =>
    "Error: " ++ m ++ "\n\nCaused by:\n" ++
      "\n".intercalate (causes.zipIdx.map fun (c, i) => "    " ++ toString i ++ ": " ++ c)

end Failure

end ProvenanceRelay
