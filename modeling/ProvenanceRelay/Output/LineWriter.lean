/-!
A writer of lines that holds text back until a line is complete.

The held text is handed to the sink when a line ends, and before that when it would grow beyond
the room. A sink may refuse a write; what it refuses stays held.
-/

namespace ProvenanceRelay.Output

/-- Where text ends up. `accepts n` tells whether the sink takes its `n`-th write. -/
structure Sink where
  accepts : Nat → Bool
  writes : Nat := 0
  written : String := ""

namespace Sink

def write (s : Sink) (text : String) : Sink × Bool :=
  if s.accepts s.writes then
    ({ s with writes := s.writes + 1, written := s.written ++ text }, true)
  else ({ s with writes := s.writes + 1 }, false)

def working : Sink := { accepts := fun _ => true }

def broken : Sink := { accepts := fun _ => false }

end Sink

structure LineWriter where
  sink : Sink
  held : String := ""

namespace LineWriter

def room : Nat := 1024

/-- Hands the held text on. The result tells whether nothing is held any more. -/
def flush (w : LineWriter) : LineWriter × Bool :=
  if w.held.isEmpty then (w, true)
  else
    match w.sink.write w.held with
    | (sink, true) => ({ sink, held := "" }, true)
    | (sink, false) => ({ w with sink }, false)

/-- Holds text that fits, after making room for it. Text as large as the room is handed on at
once. -/
def hold (w : LineWriter) (text : String) : LineWriter × Bool :=
  let size := text.utf8ByteSize
  if w.held.utf8ByteSize + size < room then ({ w with held := w.held ++ text }, true)
  else
    let (w, ok) := if room < w.held.utf8ByteSize + size then w.flush else (w, true)
    if ok then
      if room ≤ size then
        let (sink, ok) := w.sink.write text
        ({ w with sink }, ok)
      else ({ w with held := w.held ++ text }, true)
    else (w, false)

/-- Writes a part of a line, after handing on a line that was left complete. -/
def part (w : LineWriter) (text : String) : LineWriter × Bool :=
  match if w.held.toList.getLast? = some '\n' then w.flush else (w, true) with
  | (w, true) => w.hold text
  | (w, false) => (w, false)

/-- Ends a line, and hands it on. -/
def newline (w : LineWriter) : LineWriter × Bool :=
  if w.held.isEmpty then
    let (sink, ok) := w.sink.write "\n"
    ({ w with sink }, ok)
  else
    match w.hold "\n" with
    | (w, true) => w.flush
    | (w, false) => (w, false)

/-- Writes the parts up to the first that fails. -/
def parts (w : LineWriter) : List String → LineWriter × Bool
  | [] => (w, true)
  | t :: ts =>
    match w.part t with
    | (w, true) => parts w ts
    | (w, false) => (w, false)

/-- Writes one line from its parts. A line that fails midway is given up. -/
def line (w : LineWriter) (ts : List String) : LineWriter × Bool :=
  match w.parts ts with
  | (w, true) => w.newline
  | (w, false) => (w, false)

end LineWriter

end ProvenanceRelay.Output
