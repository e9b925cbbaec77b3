import Mathlib
import ProvenanceRelay.Exclusion
import ProvenanceRelay.PidFile

/-!
What becomes of the files at a place.

A path is followed through directories. So whatever happens to what is at its end, and to anything
else that is no directory, it leads to the same place as before. A PID file that has been made is
found until it is taken away, and then nothing is there. The request for exclusion changes the file
that it is written into and nothing else.
-/

namespace ProvenanceRelay

namespace Files

variable {fs gs : Files}

/-! ### The same place -/

/-- The directories are still there, and paths start where they did. -/
structure KeepsDirectories (fs gs : Files) : Prop where
  start : gs.workingDirectory = fs.workingDirectory
  lookup : ∀ p, fs.lookup p = some .directory → gs.lookup p = some .directory

lemma KeepsDirectories.follow (h : fs.KeepsDirectories gs) {here p : Place} {ns : List String}
    (hp : fs.follow here ns = .ok p) : gs.follow here ns = .ok p := by
  induction ns generalizing here with
  | nil => exact hp
  | cons n ns ih =>
    rw [Files.follow] at hp ⊢
    split at hp
    · cases hp
    · cases hp
    · cases hp
    · next hdirectory =>
      rw [h.lookup _ hdirectory]
      dsimp only
      split at hp
      · next hdot => rw [if_pos hdot]; exact ih hp
      · next hdot =>
        rw [if_neg hdot]
        split at hp
        · next hup => rw [if_pos hup]; exact ih hp
        · next hup =>
          rw [if_neg hup]
          split at hp
          · cases hp
          · next hlong => rw [if_neg hlong]; exact ih hp

lemma KeepsDirectories.locate (h : fs.KeepsDirectories gs) {path : String} {p : Place}
    (hp : fs.locate path = .ok p) : gs.locate path = .ok p := by
  unfold Files.locate at hp ⊢
  cases hcheck : check path with
  | error e =>
    rw [hcheck] at hp
    cases hp
  | ok u =>
    simp only [hcheck, Bind.bind, Except.bind] at hp ⊢
    split at hp
    · cases hp
    · exact h.follow hp
    · rw [h.start]
      exact h.follow hp

/-- What one place holds has changed, and it holds a directory neither before nor after. -/
structure Changed (fs gs : Files) (p : Place) : Prop where
  start : gs.workingDirectory = fs.workingDirectory
  before : fs.lookup p ≠ some .directory
  other : ∀ q ≠ p, gs.lookup q = fs.lookup q

lemma Changed.keepsDirectories {p : Place} (h : fs.Changed gs p) : fs.KeepsDirectories gs where
  start := h.start
  lookup q hq := by
    have hne : q ≠ p := by
      rintro rfl
      exact h.before hq
    rw [h.other q hne, hq]

lemma Changed.of_set {p : Place} (e : Entry) (h : fs.lookup p ≠ some .directory) :
    fs.Changed (fs.set p e) p ∧ (fs.set p e).lookup p = some e := by
  have hp : p ≠ [] := by
    rintro rfl
    exact h rfl
  exact ⟨⟨rfl, h, fun q hq => by rw [lookup_set fs e q hp, if_neg hq]⟩,
    by rw [lookup_set fs e p hp, if_pos rfl]⟩

lemma Changed.refl {p : Place} (h : fs.lookup p ≠ some .directory) : fs.Changed fs p :=
  ⟨rfl, h, fun _ _ => rfl⟩

lemma modify_eq_ok {f : Bytes → Bytes} {p : Place} (hmodify : fs.modify p f = .ok gs)
    (hp : fs.lookup p ≠ some .directory) :
    fs.Changed gs p ∧
      ((∃ d, gs.lookup p = some (.device d)) ∧ gs = fs ∨
        ∃ old, (fs.lookup p = some (.file old) ∨ fs.lookup p = none ∧ old = []) ∧
          gs.lookup p = some (.file (f old))) := by
  unfold modify at hmodify
  split at hmodify
  · next hfull =>
    split at hmodify
    · obtain rfl := Except.ok.inj hmodify
      exact ⟨.refl hp, .inl ⟨⟨_, hfull⟩, rfl⟩⟩
    · cases hmodify
  · next hdevice =>
    obtain rfl := Except.ok.inj hmodify
    exact ⟨.refl hp, .inl ⟨⟨_, hdevice⟩, rfl⟩⟩
  · next old hfile =>
    obtain rfl := Except.ok.inj hmodify
    obtain ⟨hchanged, hlookup⟩ := Changed.of_set (.file (f old)) hp
    exact ⟨hchanged, .inr ⟨old, .inl hfile, hlookup⟩⟩
  · next hfull hdevice hfile =>
    obtain rfl := Except.ok.inj hmodify
    obtain ⟨hchanged, hlookup⟩ := Changed.of_set (.file (f [])) hp
    refine ⟨hchanged, .inr ⟨[], .inr ⟨?_, rfl⟩, hlookup⟩⟩
    rcases hentry : fs.lookup p with _ | (old | _ | d)
    · rfl
    · exact (hfile old hentry).elim
    · exact (hp hentry).elim
    · exact (hdevice d hentry).elim

lemma find_of_lookup {path : String} {p : Place} {e : Entry} (hp : fs.locate path = .ok p)
    (he : fs.lookup p = some e) : fs.find path = .ok e := by
  simp [find, hp, he, Bind.bind, Except.bind]

lemma find_of_vacant {path : String} {p : Place} (hp : fs.locate path = .ok p)
    (h : fs.lookup p = none) : fs.find path = .error .notFound := by
  simp [find, hp, h, Bind.bind, Except.bind]

lemma target_eq_ok {path : String} {p : Place} (h : fs.target path = .ok p) :
    fs.locate path = .ok p ∧ fs.lookup p ≠ some .directory := by
  unfold target at h
  cases hcheck : check path with
  | error e =>
    rw [hcheck] at h
    cases h
  | ok u =>
    simp only [hcheck, Bind.bind, Except.bind] at h
    split at h
    · split at h <;> cases h
    · split at h
      · cases h
      · next q hlocate =>
        split at h
        · cases h
        · next hdirectory =>
          obtain rfl := Except.ok.inj h
          exact ⟨hlocate, hdirectory⟩

/-- What is written is at the end of its path, unless there is a device, which keeps none of it. -/
lemma write_eq_ok {path : String} {content : Bytes} (h : fs.write path content = .ok gs) :
    ∃ p, fs.locate path = .ok p ∧ fs.Changed gs p ∧
      ((∃ d, gs.lookup p = some (.device d)) ∧ gs = fs ∨ gs.lookup p = some (.file content)) := by
  unfold write at h
  cases htarget : fs.target path with
  | error e =>
    rw [htarget] at h
    cases h
  | ok p =>
    simp only [htarget, Bind.bind, Except.bind] at h
    obtain ⟨hlocate, hdirectory⟩ := target_eq_ok htarget
    obtain ⟨hchanged, hholds⟩ := modify_eq_ok h hdirectory
    exact ⟨p, hlocate, hchanged, hholds.imp_right fun ⟨_, _, hfile⟩ => hfile⟩

/-- Where there is no device, what is written is read. -/
lemma exists_write {path : String} {p : Place} (htarget : fs.target path = .ok p)
    (hdevice : ∀ d, fs.lookup p ≠ some (.device d)) (content : Bytes) :
    ∃ gs, fs.write path content = .ok gs ∧ gs.read path = .ok content := by
  obtain ⟨hlocate, hdirectory⟩ := target_eq_ok htarget
  obtain ⟨hchanged, hlookup⟩ := Changed.of_set (.file content) hdirectory
  have hmodify : fs.modify p (fun _ => content) = .ok (fs.set p (.file content)) := by
    rw [modify]
    rcases hentry : fs.lookup p with _ | (old | _ | d)
    · rfl
    · rfl
    · exact absurd hentry hdirectory
    · exact absurd hentry (hdevice d)
  refine ⟨fs.set p (.file content), ?_, ?_⟩
  · simp [write, htarget, hmodify, Bind.bind, Except.bind]
  · have hfind := find_of_lookup (hchanged.keepsDirectories.locate hlocate) hlookup
    simp [read, hfind, Bind.bind, Except.bind]

lemma lookup_without_self (p : Place) (es : List (Place × Entry)) :
    (without p es).lookup p = none := by
  rw [List.lookup_eq_none_iff]
  intro e he
  have hne : e.1 ≠ p := by simpa using (List.mem_filter.mp he).2
  simpa using hne.symm

/-- Taking away what is at a place leaves nothing there. -/
lemma changed_without {p : Place} (hp : fs.lookup p ≠ some .directory) :
    fs.Changed { fs with entries := without p fs.entries } p ∧
      Files.lookup { fs with entries := without p fs.entries } p = none := by
  cases p with
  | nil => exact (hp rfl).elim
  | cons n ns =>
    refine ⟨⟨rfl, hp, fun q hq => ?_⟩, lookup_without_self _ _⟩
    cases q with
    | nil => rfl
    | cons m ms => exact lookup_without hq fs.entries

/-! ### The same places everywhere -/

/-- At each place is what was there before, or another file or device in its stead. -/
structure Alike (fs gs : Files) : Prop where
  start : gs.workingDirectory = fs.workingDirectory
  vacant : ∀ p, gs.lookup p = none ↔ fs.lookup p = none
  directory : ∀ p, gs.lookup p = some .directory ↔ fs.lookup p = some .directory

lemma Changed.alike {p : Place} (h : fs.Changed gs p) (hbefore : fs.lookup p ≠ none)
    (hafter : gs.lookup p ≠ none) (hdirectory : gs.lookup p ≠ some .directory) :
    fs.Alike gs where
  start := h.start
  vacant q := by
    rcases eq_or_ne q p with rfl | hne
    · simp [hbefore, hafter]
    · rw [h.other q hne]
  directory q := by
    rcases eq_or_ne q p with rfl | hne
    · simp [h.before, hdirectory]
    · rw [h.other q hne]

lemma Alike.follow (h : fs.Alike gs) (here : Place) (ns : List String) :
    gs.follow here ns = fs.follow here ns := by
  induction ns generalizing here with
  | nil => rfl
  | cons n ns ih =>
    rw [Files.follow, Files.follow]
    have hvacant := h.vacant here
    have hdirectory := h.directory here
    simp only [ih]
    rcases hf : fs.lookup here with _ | (b | _ | d) <;>
      rcases hg : gs.lookup here with _ | (c | _ | e) <;> simp_all

lemma Alike.locate (h : fs.Alike gs) (path : String) : gs.locate path = fs.locate path := by
  unfold Files.locate
  simp only [h.follow, h.start]

lemma overwrite_eq_ok {path : String} {content : Bytes} (h : fs.overwrite path content = .ok gs) :
    ∃ p, fs.locate path = .ok p ∧ fs.Changed gs p ∧ fs.Alike gs ∧
      (gs = fs ∨ ∃ old, fs.lookup p = some (.file old) ∧
        gs.lookup p = some (.file (content ++ old.drop content.length))) := by
  unfold overwrite read find at h
  cases hlocate : fs.locate path with
  | error e =>
    rw [hlocate] at h
    cases h
  | ok p =>
    simp only [hlocate, Bind.bind, Except.bind] at h
    have hthere : fs.lookup p ≠ none ∧ fs.lookup p ≠ some .directory := by
      rcases hentry : fs.lookup p with _ | (old | _ | d) <;> simp [hentry] at h ⊢
    have hmodify : fs.modify p (fun old => content ++ old.drop content.length) = .ok gs := by
      rcases hentry : fs.lookup p with _ | (old | _ | d)
      · simp [hentry] at h
      · simpa [hentry] using h
      · simp [hentry] at h
      · simpa [hentry] using h
    obtain ⟨hchanged, hholds⟩ := modify_eq_ok hmodify hthere.2
    refine ⟨p, rfl, hchanged, hchanged.alike hthere.1 ?_ ?_, ?_⟩
    · rcases hholds with ⟨⟨d, hd⟩, -⟩ | ⟨old, -, hfile⟩ <;> simp [*]
    · rcases hholds with ⟨⟨d, hd⟩, -⟩ | ⟨old, -, hfile⟩ <;> simp [*]
    · rcases hholds with ⟨-, hsame⟩ | ⟨old, hold | ⟨hvacant, -⟩, hfile⟩
      · exact .inl hsame
      · exact .inr ⟨old, hold, hfile⟩
      · exact (hthere.1 hvacant).elim

lemma Alike.find_of_ne (h : fs.Alike gs) {p : Place} (hchanged : fs.Changed gs p) {path : String}
    (hne : fs.locate path ≠ .ok p) : gs.find path = fs.find path := by
  unfold find
  rw [h.locate]
  cases hq : fs.locate path with
  | error e => rfl
  | ok q =>
    have hqp : q ≠ p := by
      rintro rfl
      exact hne hq
    simp only [Bind.bind, Except.bind, hchanged.other q hqp]

end Files

namespace PidFile

open Files

variable {fs gs : Files} {path : String} {pid : UInt32}

lemma create_eq_ok (h : create fs path pid = .ok gs) :
    ∃ p, fs.locate path = .ok p ∧ fs.Changed gs p ∧
      ((∃ d, gs.lookup p = some (.device d)) ∧ gs = fs ∨
        gs.lookup p = some (.file (Text.Utf8.encode (text pid)))) :=
  write_eq_ok h

lemma find_create (h : create fs path pid = .ok gs) :
    (∃ d, gs.find path = .ok (.device d)) ∨
      gs.find path = .ok (.file (Text.Utf8.encode (text pid))) := by
  obtain ⟨p, hlocate, hchanged, hholds⟩ := create_eq_ok h
  have hagain := hchanged.keepsDirectories.locate hlocate
  exact hholds.imp (fun ⟨⟨d, hd⟩, _⟩ => ⟨d, find_of_lookup hagain hd⟩)
    fun hfile => find_of_lookup hagain hfile

lemma changed_create (h : create fs path pid = .ok gs) :
    ∃ p, fs.locate path = .ok p ∧ gs.locate path = .ok p ∧ gs.lookup p ≠ some .directory ∧
      fs.Changed gs p := by
  obtain ⟨p, hlocate, hchanged, hholds⟩ := create_eq_ok h
  refine ⟨p, hlocate, hchanged.keepsDirectories.locate hlocate, ?_, hchanged⟩
  rcases hholds with ⟨⟨d, hd⟩, -⟩ | hfile
  · simp [hd]
  · simp [hfile]

/-- Whatever is dropped, nothing is there afterwards. -/
lemma changed_release {p : Place} (hlocate : fs.locate path = .ok p)
    (hdirectory : fs.lookup p ≠ some .directory) :
    fs.Changed (release fs path) p ∧ (release fs path).lookup p = none := by
  unfold release remove
  rcases hentry : fs.lookup p with _ | (content | _ | d)
  · simpa [hlocate, hentry, Bind.bind, Except.bind] using Changed.refl hdirectory
  · simpa [hlocate, hentry, Bind.bind, Except.bind, Pure.pure, Except.pure] using
      changed_without hdirectory
  · exact absurd hentry hdirectory
  · simpa [hlocate, hentry, Bind.bind, Except.bind, Pure.pure, Except.pure] using
      changed_without hdirectory

lemma find_release (h : create fs path pid = .ok gs) :
    (release gs path).find path = .error .notFound := by
  obtain ⟨p, -, hlocate, hdirectory, -⟩ := changed_create h
  obtain ⟨hchanged, hvacant⟩ := changed_release hlocate hdirectory
  exact find_of_vacant (hchanged.keepsDirectories.locate hlocate) hvacant

end PidFile

end ProvenanceRelay
