import ProvenanceRelay.Files
import ProvenanceRelay.Text.Blank

/-!
The file that holds the process number of a running relay.

The number is written in decimal. It is read with an optional plus sign and with white space around
it, and has to fit in 32 bits.
-/

namespace ProvenanceRelay.PidFile

def text (pid : UInt32) : String := Text.Numeral.decimal pid.toNat

def maxPid : Nat := UInt32.size - 1

def parse (s : String) : Except SystemError UInt32 :=
  match Text.Numeral.read maxPid (Text.trim s.toList) with
  | .ok n => .ok (UInt32.ofNat n)
  | .error fault => .error (.notNumber fault)

/-- The number in a file, given the outcome of reading its text. -/
def ofText : Except SystemError String → Except SystemError (Option UInt32)
  | .ok s => some <$> parse s
  | .error .notFound => .ok none
  | .error e => .error e

def read (fs : Files) (path : String) : Except SystemError (Option UInt32) :=
  ofText (fs.readText path)

def create (fs : Files) (path : String) (pid : UInt32) : Except SystemError Files :=
  fs.write path (Text.Utf8.encode (text pid))

/-- Takes the file away whatever it holds. A file that is gone already is no fault. -/
def release (fs : Files) (path : String) : Files :=
  match fs.remove path with
  | .ok fs => fs
  | .error _ => fs

end ProvenanceRelay.PidFile
