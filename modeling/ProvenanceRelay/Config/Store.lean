import ProvenanceRelay.Config.Reader
import ProvenanceRelay.Files

/-!
The configuration in use and the file that it came from.

A load that fails keeps both. A save does not change them, and does not touch the file unless the
whole configuration can be written.
-/

namespace ProvenanceRelay

inductive ConfigError where
  | unreadable (path : String) (cause : SystemError)
  | malformed
  | unwritable (path : String) (cause : SystemError)
  /-- A setting has no text. -/
  | unprintable (fault : Toml.PrintFault)
  deriving DecidableEq, Repr

def ConfigError.message : ConfigError → String
  | unreadable path _ => "Failed to read config file: " ++ path
  | malformed => "Failed to parse config file"
  | unwritable path _ => "Failed to write config file: " ++ path
  | unprintable .integer => "out-of-range value for u64 type"
  | unprintable .quotes => "too many quotes in a row"

namespace Config

/-- The configuration in a file, given the outcome of reading its text. -/
def ofFile (path : String) : Except SystemError String → Except ConfigError Config
  | .error e => .error (.unreadable path e)
  | .ok s =>
    match ofText? s with
    | none => .error .malformed
    | some c => .ok c

def load (fs : Files) (path : String) : Except ConfigError Config :=
  ofFile path (fs.readText path)

def print (c : Config) : Except ConfigError String :=
  match c.text with
  | .error f => .error (.unprintable f)
  | .ok s => .ok s

def save (c : Config) (fs : Files) (path : String) : Except ConfigError Files :=
  match c.print with
  | .error e => .error e
  | .ok s =>
    match fs.write path (Text.Utf8.encode s) with
    | .error e => .error (.unwritable path e)
    | .ok fs => .ok fs

end Config

structure ConfigStore where
  config : Config := {}
  /-- The file of the last load that succeeded. -/
  path : Option String := none

namespace ConfigStore

inductive Request where
  | load (path : String)
  | save (path : String)
  | set (config : Config)

/-- What comes of a request: the store, the files, and the error if there is one. -/
structure Outcome where
  store : ConfigStore
  files : Files
  error : Option ConfigError := none

def perform (s : ConfigStore) (fs : Files) : Request → Outcome
  | .load path =>
    match Config.load fs path with
    | .ok c => { store := ⟨c, some path⟩, files := fs }
    | .error e => { store := s, files := fs, error := some e }
  | .save path =>
    match s.config.save fs path with
    | .ok fs => { store := s, files := fs }
    | .error e => { store := s, files := fs, error := some e }
  | .set c => { store := { s with config := c }, files := fs }

end ConfigStore

end ProvenanceRelay
