import ProvenanceRelay.PidFile

/-!
Relays that have their PID file at one path.

Each writes its own number there when it has registered, whatever the file holds, and takes the file
away when it stops. None of them knows of the others.
-/

namespace ProvenanceRelay.PidFile

structure Owners where
  path : String
  files : Files
  /-- The numbers of those that have made the file and have not dropped it. -/
  holders : List UInt32 := []

namespace Owners

inductive Event where
  | create (pid : UInt32)
  | drop (pid : UInt32)
  deriving DecidableEq, Repr

/-- Does what has happened change anything? A file can fail to be made, and only one who has made it
can drop it. -/
def counts (s : Owners) : Event → Bool
  | .create pid => (create s.files s.path pid).toBool
  | .drop pid => pid ∈ s.holders

def step (s : Owners) : Event → Owners
  | .create pid =>
    match create s.files s.path pid with
    | .ok files => { s with files, holders := pid :: s.holders }
    | .error _ => s
  | .drop pid =>
    if pid ∈ s.holders then
      { s with files := release s.files s.path, holders := s.holders.erase pid }
    else s

def run (s : Owners) (es : List Event) : Owners := es.foldl step s

/-- The events that change anything, in order. -/
def changes (s : Owners) : List Event → List Event
  | [] => []
  | e :: es => if s.counts e then e :: (s.step e).changes es else (s.step e).changes es

@[simp] theorem run_nil (s : Owners) : s.run [] = s := rfl

@[simp] theorem run_cons (s : Owners) (e : Event) (es : List Event) :
    s.run (e :: es) = (s.step e).run es := rfl

theorem run_append (s : Owners) (es es' : List Event) : s.run (es ++ es') = (s.run es).run es' :=
  List.foldl_append

theorem changes_append (s : Owners) (es es' : List Event) :
    s.changes (es ++ es') = s.changes es ++ (s.run es).changes es' := by
  induction es generalizing s with
  | nil => rfl
  | cons e es ih =>
    rw [List.cons_append, changes, changes, run_cons, ih]
    split <;> rfl

end Owners

end ProvenanceRelay.PidFile
