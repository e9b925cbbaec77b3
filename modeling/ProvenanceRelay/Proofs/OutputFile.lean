import Mathlib
import ProvenanceRelay.Daemon
import ProvenanceRelay.Proofs.FilePlaces
import ProvenanceRelay.Proofs.Stopping

/-!
The file that the output goes to.

Opening the output keeps what the file holds, and makes an empty file where there is none. As long
as neither the PID file nor the file of the request for exclusion is that very file, it is still as
it was when the readers are done, and then their text comes at its end.
-/

namespace ProvenanceRelay

namespace Files

variable {fs gs : Files} {path : String} {p q : Place} {content : Bytes}

/-- A path leads to a file. -/
structure Holds (fs : Files) (path : String) (p : Place) (content : Bytes) : Prop where
  locate : fs.locate path = .ok p
  lookup : fs.lookup p = some (.file content)

lemma Holds.find (h : fs.Holds path p content) : fs.find path = .ok (.file content) :=
  find_of_lookup h.locate h.lookup

lemma Holds.of_changed (h : fs.Holds path p content) (hchanged : fs.Changed gs q) (hne : q ≠ p) :
    gs.Holds path p content where
  locate := hchanged.keepsDirectories.locate h.locate
  lookup := by rw [hchanged.other p hne.symm, h.lookup]

/-- Whether a path can be one of a file does not depend on the files, if it leads to one. -/
lemma target_of_holds {q : Place} (htarget : fs.target path = .ok q)
    (h : gs.Holds path p content) : gs.target path = .ok p := by
  unfold target at htarget ⊢
  cases hcheck : check path with
  | error e =>
    rw [hcheck] at htarget
    cases htarget
  | ok u =>
    simp only [hcheck, Bind.bind, Except.bind] at htarget ⊢
    split at htarget
    · split at htarget <;> cases htarget
    · next hslash => simp [h.locate, h.lookup]

lemma Holds.append (h : fs.Holds path p content) (htarget : fs.target path = .ok p)
    (more : Bytes) : ∃ hs, fs.append path more = .ok hs ∧ hs.Holds path p (content ++ more) := by
  have hdirectory : fs.lookup p ≠ some .directory := by simp [h.lookup]
  obtain ⟨hchanged, hlookup⟩ := Changed.of_set (.file (content ++ more)) hdirectory
  refine ⟨fs.set p (.file (content ++ more)), ?_, ?_, hlookup⟩
  · simp [Files.append, htarget, modify, h.lookup, Bind.bind, Except.bind]
  · exact hchanged.keepsDirectories.locate h.locate

end Files

/-! ### From the opening on -/

variable {σ : Type} {config : RelayConfig} {fs gs : Files} {path : String} {p : Place}
  {content : Bytes}

/-- The relay keeps neither its PID file nor its request for exclusion in the file at the end of a
path. -/
structure RelayConfig.Spares (config : RelayConfig) (fs : Files) (path : String) : Prop where
  pidFile : ∀ other, config.pidFile = some other → fs.locate other ≠ fs.locate path
  exclusion : ∀ other, config.exclusion = some other → fs.locate other ≠ fs.locate path

lemma Files.Holds.of_exclusion (h : fs.Holds path p content) (hspares : config.Spares fs path)
    (hasked : Exclusion.apply config.exclusion fs = .ok gs) :
    gs.Holds path p content ∧ config.Spares gs path := by
  cases hself : config.exclusion with
  | none =>
    rw [hself] at hasked
    obtain rfl := Except.ok.inj hasked
    exact ⟨h, hspares⟩
  | some self =>
    rw [hself] at hasked
    obtain ⟨q, hq, hchanged, halike, -⟩ := Files.overwrite_eq_ok hasked
    have hne : q ≠ p := by
      rintro rfl
      exact hspares.exclusion self hself (hq.trans h.locate.symm)
    refine ⟨h.of_changed hchanged hne, ?_, ?_⟩
    all_goals
      intro other hother
      rw [halike.locate, halike.locate]
    · exact hspares.pidFile other hother
    · exact hspares.exclusion other hother

lemma Files.Holds.of_filed {r₀ r : Relay σ} (hfiled : r₀.Filed r)
    (h : r₀.files.Holds path p content)
    (hspares : ∀ other, r₀.pidPath = some other → r₀.files.locate other ≠ r₀.files.locate path) :
    r.files.Holds path p content := by
  have hcreated : ∀ {other : String} {hs : Files}, r.pidPath = some other →
      PidFile.create r₀.files other r.pid = .ok hs →
      ∃ q, q ≠ p ∧ hs.locate other = .ok q ∧ hs.lookup q ≠ some .directory ∧
        hs.Holds path p content := by
    intro other hs hother hcreate
    obtain ⟨q, hq, hlocate, hdirectory, hchanged⟩ := PidFile.changed_create hcreate
    have hne : q ≠ p := by
      rintro rfl
      exact hspares other (hfiled.pidPath ▸ hother) (hq.trans h.locate.symm)
    exact ⟨q, hne, hlocate, hdirectory, h.of_changed hchanged hne⟩
  cases hfiled.marking with
  | unmarked hwhy hpid hfiles => exact hfiles ▸ h
  | marked hfailure hearly hdown hpath hpid hcreate =>
    obtain ⟨q, -, -, -, hholds⟩ := hcreated hpath hcreate
    exact hholds
  | released hfailure hdown hpath hpid hcreate hfiles =>
    obtain ⟨q, hne, hlocate, hdirectory, hholds⟩ := hcreated hpath hcreate
    rw [hfiles]
    exact hholds.of_changed (PidFile.changed_release hlocate hdirectory).1 hne

namespace Daemon

lemma holds_of_openOutput {output : Output.OutputConfig} (hfile : output.file = some path)
    (hopen : openOutput output gs = .ok fs)
    (hfound : gs.find path = .ok (.file content) ∨
      gs.find path = .error .notFound ∧ content = []) :
    ∃ p, gs.target path = .ok p ∧ fs.Holds path p content := by
  have happend : gs.append path [] = .ok fs := by
    unfold openOutput at hopen
    rw [hfile] at hopen
    dsimp only at hopen
    split at hopen
    · next hs happend => rw [happend, Except.ok.inj hopen]
    · cases hopen
  unfold Files.append at happend
  cases htarget : gs.target path with
  | error e =>
    rw [htarget] at happend
    cases happend
  | ok p =>
    simp only [htarget, Bind.bind, Except.bind] at happend
    obtain ⟨hlocate, hdirectory⟩ := Files.target_eq_ok htarget
    obtain ⟨hchanged, hholds⟩ := Files.modify_eq_ok happend hdirectory
    have hentry : gs.lookup p = some (.file content) ∨ gs.lookup p = none ∧ content = [] := by
      unfold Files.find at hfound
      simp only [hlocate, Bind.bind, Except.bind] at hfound
      rcases hlookup : gs.lookup p with _ | e <;> simp_all
    refine ⟨p, rfl, hchanged.keepsDirectories.locate hlocate, ?_⟩
    rcases hholds with ⟨⟨d, hd⟩, rfl⟩ | ⟨old, hold, hlookup⟩
    · -- where a device is, there is no file
      rcases hentry with hentry | ⟨hentry, -⟩ <;> simp [hd] at hentry
    · -- the file is as it was, or a new one is empty
      have holdContent : old = content := by
        rcases hold with hold | ⟨hold, rfl⟩ <;> rcases hentry with hentry | ⟨hentry, rfl⟩ <;>
          simp_all
      rw [hlookup, List.append_nil, holdContent]

lemma find_deliver {d : Daemon} (hfile : d.config.output.file = some path)
    (htarget : gs.target path = .ok p) (h : fs.Holds path p content) :
    (d.deliver fs).2.1.find path =
      .ok (.file
        (content ++ Text.Utf8.encode d.scene.relay.dispatcher.state.out.sink.written)) := by
  obtain ⟨hs, happend, hholds⟩ := h.append (Files.target_of_holds htarget h)
    (Text.Utf8.encode d.scene.relay.dispatcher.state.out.sink.written)
  have hdevice : fs.device? path ≠ some .output := by simp [Files.device?, h.find]
  have hexists : fs.exists? path = true := by simp [Files.exists?, h.find, Except.toBool]
  have hdeliver : (d.deliver fs).2.1 = hs := by
    unfold deliver collect
    simp only [hfile, if_neg hdevice, hexists, if_true, happend]
    rfl
  rw [hdeliver, hholds.find]

end Daemon

end ProvenanceRelay
