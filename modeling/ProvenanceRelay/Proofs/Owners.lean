import Mathlib
import ProvenanceRelay.PidFile.Owners
import ProvenanceRelay.Proofs.FilePlaces
import ProvenanceRelay.Proofs.PidText
import ProvenanceRelay.Proofs.Utf8Text

/-!
Whose number a PID file holds that several relays make and drop.

What the last of them has done decides: the file holds the number of who has made it, or it is gone.
So the number of a relay is there until another one makes or drops the file. That a relay drops a
file that holds the number of another is not prevented.
-/

namespace ProvenanceRelay

namespace PidFile

open Files

variable {fs gs : Files} {path : String} {pid : UInt32}

/-! ### The file at a path -/

/-- The path leads to a file or to where there can be one. -/
def Clear (fs : Files) (path : String) : Prop :=
  ∃ p, fs.locate path = .ok p ∧ (fs.lookup p = none ∨ ∃ content, fs.lookup p = some (.file content))

lemma Clear.device? (h : Clear fs path) (d : Device) : fs.device? path ≠ some d := by
  obtain ⟨p, hlocate, hvacant | ⟨content, hfile⟩⟩ := h
  · simp [Files.device?, find_of_vacant hlocate hvacant]
  · simp [Files.device?, find_of_lookup hlocate hfile]

lemma create_clear (hdevice : ∀ d, fs.device? path ≠ some d) (h : create fs path pid = .ok gs) :
    Clear gs path ∧ read gs path = .ok (some pid) := by
  obtain ⟨p, hlocate, hchanged, ⟨⟨d, hd⟩, rfl⟩ | hfile⟩ := create_eq_ok h
  · have hthere : gs.device? path = some d := by simp [device?, find_of_lookup hlocate hd]
    exact absurd hthere (hdevice d)
  · have hagain := hchanged.keepsDirectories.locate hlocate
    refine ⟨⟨p, hagain, .inr ⟨_, hfile⟩⟩, ?_⟩
    have hparse : parse (text pid) = .ok pid := parse_eq_ok_iff.mpr (denotes_text pid)
    simp [read, readText, Files.read, find_of_lookup hagain hfile, Text.Utf8.decode?_encode, ofText,
      hparse, Bind.bind, Except.bind]

lemma release_clear (h : Clear fs path) :
    Clear (release fs path) path ∧ read (release fs path) path = .ok none := by
  obtain ⟨p, hlocate, hplace⟩ := h
  have hdirectory : fs.lookup p ≠ some .directory := by
    rcases hplace with hvacant | ⟨content, hfile⟩
    · simp [hvacant]
    · simp [hfile]
  obtain ⟨hchanged, hvacant⟩ := changed_release hlocate hdirectory
  have hagain := hchanged.keepsDirectories.locate hlocate
  refine ⟨⟨p, hagain, .inl hvacant⟩, ?_⟩
  simp [read, readText, Files.read, find_of_vacant hagain hvacant, ofText, Bind.bind, Except.bind]

namespace Owners

/-- What is read from the file once something has changed it. -/
def Event.leaves : Event → Except SystemError (Option UInt32)
  | .create pid => .ok (some pid)
  | .drop _ => .ok none

/-- There is no device at the path, and those that have made the file can drop it. -/
structure Sound (s : Owners) : Prop where
  device : ∀ d, s.files.device? s.path ≠ some d
  clear : s.holders ≠ [] → Clear s.files s.path

variable {s : Owners} {e : Event}

@[simp] lemma path_step (s : Owners) (e : Event) : (s.step e).path = s.path := by
  cases e <;> (unfold step; dsimp only; split <;> rfl)

lemma step_of_not_counts (h : ¬ s.counts e) : s.step e = s := by
  cases e with
  | create pid =>
    rw [step]
    cases hcreate : create s.files s.path pid with
    | error e => rfl
    | ok gs => simp [counts, hcreate, Except.toBool] at h
  | drop pid =>
    rw [step, if_neg]
    simpa [counts] using h

lemma Sound.step (hs : s.Sound) (h : s.counts e) :
    (s.step e).Sound ∧ PidFile.read (s.step e).files s.path = e.leaves := by
  have hstep : Clear (s.step e).files s.path ∧ PidFile.read (s.step e).files s.path = e.leaves := by
    cases e with
    | create pid =>
      rw [Owners.step]
      cases hcreate : create s.files s.path pid with
      | error e => simp [counts, hcreate, Except.toBool] at h
      | ok gs => exact create_clear hs.device hcreate
    | drop pid =>
      have hpid : pid ∈ s.holders := by simpa [counts] using h
      rw [Owners.step, if_pos hpid]
      exact release_clear (hs.clear (List.ne_nil_of_mem hpid))
  refine ⟨⟨?_, fun _ => ?_⟩, hstep.2⟩
  · rw [path_step]
    exact hstep.1.device?
  · rw [path_step]
    exact hstep.1

lemma Sound.read_run (hs : s.Sound) (es : List Event) :
    PidFile.read (s.run es).files s.path =
      (s.changes es).getLast?.elim (PidFile.read s.files s.path) Event.leaves := by
  induction es generalizing s with
  | nil => rfl
  | cons e es ih =>
    rw [run_cons, changes]
    split
    · next h =>
      obtain ⟨hsound, hread⟩ := hs.step h
      have hrest := ih hsound
      rw [path_step, hread] at hrest
      rw [hrest, List.getLast?_cons]
      cases ((s.step e).changes es).getLast? <;> rfl
    · next h =>
      rw [step_of_not_counts h]
      exact ih hs

/-- After any history the file holds the number of who has made it last, or it is gone if it has
been dropped since, by whomever. So from when a relay has made it, and before that relay drops it or
another makes it, its number is there if and only if no other relay has dropped the file. -/
theorem read_after_last_change {files : Files} {path : String}
    (hdevice : ∀ d, files.device? path ≠ some d) (es : List Event) :
    let s : Owners := { path, files }
    PidFile.read (s.run es).files path =
        (s.changes es).getLast?.elim (PidFile.read files path) Event.leaves ∧
      ∀ before pid after, es = before ++ .create pid :: after →
        (s.run before).counts (.create pid) →
        (∀ e ∈ (s.run (before ++ [.create pid])).changes after,
          e ≠ .drop pid ∧ ∀ other, e ≠ .create other) →
        (PidFile.read (s.run es).files path = .ok (some pid) ↔
          (s.run (before ++ [.create pid])).changes after = []) := by
  intro s
  have hsound : s.Sound := ⟨hdevice, fun h => absurd rfl h⟩
  have hread := hsound.read_run es
  refine ⟨hread, ?_⟩
  rintro before pid after rfl hcounts hothers
  have hchanges : s.changes (before ++ .create pid :: after) =
      s.changes before ++ .create pid :: (s.run (before ++ [.create pid])).changes after := by
    rw [changes_append, changes, if_pos hcounts, run_append, run_cons, run_nil]
  rw [hchanges, List.getLast?_append, List.getLast?_cons] at hread
  rw [hread]
  cases hlast : ((s.run (before ++ [.create pid])).changes after).getLast? with
  | none => simpa [Event.leaves] using List.getLast?_eq_none_iff.mp hlast
  | some e =>
    have hmem := List.mem_of_getLast? hlast
    have hne := List.ne_nil_of_mem hmem
    cases e with
    | create other => exact absurd rfl ((hothers _ hmem).2 other)
    | drop other => simp [Event.leaves, hne]

def shared : Owners := { path := "relay.pid", files := {} }

theorem read_after_last_change_second :
    (∀ d, shared.files.device? shared.path ≠ some d) ∧
      PidFile.read (shared.run [.create 1, .create 2]).files shared.path = .ok (some 2) := by
  have hdevice : ∀ d, shared.files.device? shared.path ≠ some d := by
    intro d
    cases d <;> decide +kernel
  have hsecond := (read_after_last_change hdevice [.create 1, .create 2]).2 [.create 1] 2 [] rfl
    (by decide +kernel) nofun
  exact ⟨hdevice, hsecond.mpr rfl⟩

/-- The first of two relays to stop takes away the file that holds the number of the other. -/
theorem exists_taken_away :
    PidFile.read (shared.run [.create 1, .create 2]).files shared.path = .ok (some 2) ∧
      2 ∈ (shared.run [.create 1, .create 2, .drop 1]).holders ∧
      PidFile.read (shared.run [.create 1, .create 2, .drop 1]).files shared.path = .ok none := by
  refine ⟨?_, ?_, ?_⟩ <;> decide +kernel

end Owners

end PidFile

end ProvenanceRelay
