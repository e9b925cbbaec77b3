import ProvenanceRelay.Bytes
import ProvenanceRelay.Record.Basic
import ProvenanceRelay.Relay.Config
import ProvenanceRelay.SystemError

/-!
How a reader takes records from its channel.

It looks at the running flag, waits for the channel, and reads until what it has read is a whole
number of records. Inside a record it goes on reading, unless the flag has been cleared: then the
part of a record is dropped. The whole records are dispatched one by one. A read that fails drops
what has been read since the reader last waited.
-/

namespace ProvenanceRelay.Reader

inductive ReadResult where
  /-- Bytes; none of them means that there are none at present. -/
  | data (bs : Bytes)
  | wouldBlock
  | interrupted
  | failed (e : SystemError)
  deriving DecidableEq, Repr

inductive Phase where
  | top
  | polling
  | reading (buf : Bytes)
  /-- Inside a record, about to look at the running flag. -/
  | torn (buf : Bytes)
  /-- Whole records that are yet to be dispatched. -/
  | batch (records : List Bytes)
  | done
  deriving DecidableEq, Repr

/-- What a reader learns in a step. -/
inductive Input where
  | flag (running : Bool)
  | polled (fault : Option SystemError)
  | read (r : ReadResult)
  | next
  deriving DecidableEq, Repr

/-- What a reader does in a step. -/
inductive Deed where
  | fault (message : String)
  | drained
  | dispatch (record : Bytes)
  deriving DecidableEq, Repr

/-- The shape of the records, and how many of them are asked for at once. -/
structure Drain where
  shape : Shape
  perDrain : UInt64
  deriving DecidableEq, Repr

/-- The room for the records of a drain. The product is exact, as a build with overflow checks has
it: there a product of 2 ^ 64 or more is a panic. A build without the checks goes on with what 64
bits keep of it, which for 2 ^ 56 records is an empty buffer. -/
def Drain.capacity (d : Drain) : Nat := d.shape.size * d.perDrain.toNat

def maxCapacity : Nat := UInt64.size / 2 - 1

/-- The whole records that bytes begin with. -/
def records (size : Nat) (bs : Bytes) : List Bytes :=
  if _h : 0 < size ∧ size ≤ (bs.take size).length then
    bs.take size :: records size (bs.drop size)
  else []
termination_by bs.length
decreasing_by
  simp only [List.length_take] at _h
  simp only [List.length_drop]
  omega

namespace Drain

variable (d : Drain)

def room (buf : Bytes) : Nat := d.capacity - buf.length

/-- Hands over the whole records, if there are any. -/
def release (buf : Bytes) : Phase × List Deed :=
  match records d.shape.size buf with
  | [] => (.top, [])
  | rs => (.batch rs, [.drained])

/-- Ends on the boundary of a record. -/
def settle (buf : Bytes) : Phase × List Deed :=
  if buf.length % d.shape.size = 0 then d.release buf else (.torn buf, [])

def pollFault (e : SystemError) : Deed := .fault ("Failed while polling (" ++ e.message ++ ").")

def readFault (e : SystemError) : Deed := .fault ("Failed while reading (" ++ e.message ++ ").")

/-- An input that is not to be had where the reader is changes nothing. -/
def step : Phase → Input → Phase × List Deed
  | .top, .flag true => (.polling, [])
  | .top, .flag false => (.done, [])
  | .polling, .polled none => (.reading [], [])
  | .polling, .polled (some e) => (.top, [pollFault e])
  | .reading buf, .read (.data bs) => d.settle (buf ++ bs.take (d.room buf))
  | .reading buf, .read .wouldBlock => d.settle buf
  | .reading buf, .read .interrupted => (.reading buf, [])
  | .reading _, .read (.failed e) => (.top, [readFault e])
  | .torn buf, .flag true => (.reading buf, [])
  | .torn buf, .flag false => d.release buf
  | .batch (r :: rs), .next => (if rs.isEmpty then .top else .batch rs, [.dispatch r])
  | .batch [], .next => (.top, [])
  | p, _ => (p, [])

/-- The bytes that a step takes from the channel. -/
def taken : Phase → Input → Bytes
  | .reading buf, .read (.data bs) => bs.take (d.room buf)
  | _, _ => []

/-- A run of the loop: where it is, what it has done, and what it has taken. -/
structure Progress where
  phase : Phase := .top
  deeds : List Deed := []
  consumed : Bytes := []

def advance (s : Progress) (i : Input) : Progress where
  phase := (d.step s.phase i).1
  deeds := s.deeds ++ (d.step s.phase i).2
  consumed := s.consumed ++ d.taken s.phase i

def run (s : Progress) (is : List Input) : Progress := is.foldl d.advance s

@[simp] theorem run_nil (s : Progress) : d.run s [] = s := rfl

@[simp] theorem run_cons (s : Progress) (i : Input) (is : List Input) :
    d.run s (i :: is) = d.run (d.advance s i) is := rfl

theorem run_append (s : Progress) (is js : List Input) :
    d.run s (is ++ js) = d.run (d.run s is) js := by
  simp [run, List.foldl_append]

end Drain

end ProvenanceRelay.Reader
