import ProvenanceRelay.Config.Store

/-!
A configuration store at work.

Others change the files between its requests. A request that brings a configuration into use is a
success: a load of a file that holds one, or a configuration that is set.
-/

namespace ProvenanceRelay.ConfigStore

structure Session where
  store : ConfigStore := {}
  files : Files := {}

inductive Event where
  | request (r : Request)
  /-- Others have changed the files. -/
  | others (fs : Files)

inductive Success where
  | loaded (path : String) (c : Config)
  | set (c : Config)

namespace Success

def config : Success → Config
  | loaded _ c | set c => c

def path? : Success → Option String
  | loaded path _ => some path
  | set _ => none

end Success

namespace Session

def outcome (s : Session) (r : Request) : Outcome := s.store.perform s.files r

def step (s : Session) : Event → Session
  | .request r => ⟨(s.outcome r).store, (s.outcome r).files⟩
  | .others fs => { s with files := fs }

def run (s : Session) (es : List Event) : Session := es.foldl step s

@[simp] theorem run_nil (s : Session) : s.run [] = s := rfl

@[simp] theorem run_cons (s : Session) (e : Event) (es : List Event) :
    s.run (e :: es) = (s.step e).run es := rfl

/-- The configuration in a file as it is now, if its text denotes one. -/
def held? (s : Session) (path : String) : Option Config :=
  (s.files.readText path).toOption.bind Config.ofText?

def success? (s : Session) : Event → Option Success
  | .request (.load path) => (s.held? path).map (.loaded path)
  | .request (.set c) => some (.set c)
  | .request (.save _) | .others _ => none

def successes (s : Session) : List Event → List Success
  | [] => []
  | e :: es => (s.success? e).toList ++ successes (s.step e) es

end Session

end ProvenanceRelay.ConfigStore
