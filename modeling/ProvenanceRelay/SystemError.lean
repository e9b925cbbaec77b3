import ProvenanceRelay.Text.Numeral

/-!
What can go wrong between the relay and the system it runs on.
-/

namespace ProvenanceRelay

inductive SystemError where
  | notFound
  | isDirectory
  | notDirectory
  | nameTooLong
  | noSpace
  /-- A path has a zero character. -/
  | zeroInPath
  /-- The bytes of a file are no text. -/
  | notText
  /-- The text of a file is no number. -/
  | notNumber (fault : Text.Numeral.Fault)
  | noThreads
  /-- A panic: there is no room for so many threads. -/
  | tooManyThreads
  /-- A panic: the name of a thread has a zero character. -/
  | badThreadName
  | poolDestroyed
  | cpuOutOfRange (cpu capacity : Nat)
  /-- Any other failure, told by its text. -/
  | other (text : String)
  deriving DecidableEq, Repr

def SystemError.message : SystemError → String
  | notFound => "No such file or directory (os error 2)"
  | isDirectory => "Is a directory (os error 21)"
  | notDirectory => "Not a directory (os error 20)"
  | nameTooLong => "File name too long (os error 36)"
  | noSpace => "No space left on device (os error 28)"
  | zeroInPath => "file name contained an unexpected NUL byte"
  | notText => "stream did not contain valid UTF-8"
  | notNumber fault => fault.message
  | noThreads => "worker pool needs at least one thread"
  | tooManyThreads => "capacity overflow"
  | badThreadName => "thread name may not contain interior null bytes"
  | poolDestroyed => "worker pool is destroyed"
  | cpuOutOfRange cpu capacity =>
    "cpu " ++ Text.Numeral.decimal cpu ++ " exceeds cpu set capacity " ++
      Text.Numeral.decimal capacity
  | other text => text

end ProvenanceRelay
