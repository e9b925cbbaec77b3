import Mathlib
import ProvenanceRelay.Proofs.FilePlaces
import ProvenanceRelay.Proofs.PidText
import ProvenanceRelay.Proofs.Utf8Text

/-!
What a PID file may hold.

A file is read as a number if and only if it is a text that denotes one of 32 bits. Any other file
is refused for what it holds: it is no text, or the text is no such number. So what is written for a
number is read as that number.
-/

namespace ProvenanceRelay

/-- The data of a file are not what they have to be. -/
def SystemError.isInvalidData : SystemError → Bool
  | .notText | .notNumber _ => true
  | _ => false

namespace PidFile

open Text

variable {fs gs : Files} {path : String} {pid : UInt32} {content : Bytes}

/-- Bytes are a text that denotes the number. -/
def HoldsNumber (content : Bytes) (n : ℕ) : Prop := ∃ s, content = Utf8.encode s ∧ Denotes s n

def ofContent (content : Bytes) : Except SystemError (Option UInt32) :=
  match Utf8.decode? content with
  | some s => some <$> parse s
  | none => .error .notText

lemma read_of_find (h : fs.find path = .ok (.file content)) : read fs path = ofContent content := by
  unfold read Files.readText Files.read ofContent
  rw [h]
  dsimp only [Bind.bind, Except.bind]
  cases Utf8.decode? content <;> rfl

lemma ofContent_encode (s : String) : ofContent (Utf8.encode s) = some <$> parse s := by
  rw [ofContent, Utf8.decode?_encode]

lemma ofContent_eq_iff : ofContent content = .ok (some pid) ↔ HoldsNumber content pid.toNat := by
  have hsome (s : String) : some <$> parse s = .ok (some pid) ↔ Denotes s pid.toNat := by
    rw [← parse_eq_ok_iff]
    cases parse s <;> simp
  constructor
  · intro h
    cases hs : Utf8.decode? content with
    | none => simp [ofContent, hs] at h
    | some s =>
      obtain rfl := Utf8.decode?_eq_some_iff.mp hs
      exact ⟨s, rfl, (hsome s).mp (by rwa [ofContent_encode] at h)⟩
  · rintro ⟨s, rfl, hs⟩
    rw [ofContent_encode]
    exact (hsome s).mpr hs

lemma ofContent_cases (content : Bytes) :
    (∃ pid, ofContent content = .ok (some pid)) ∨
      ∃ e, ofContent content = .error e ∧ e.isInvalidData := by
  unfold ofContent
  cases Utf8.decode? content with
  | none => exact .inr ⟨_, rfl, rfl⟩
  | some s =>
    unfold parse
    dsimp only
    cases Numeral.read maxPid (trim s.toList) with
    | ok n => exact .inl ⟨_, rfl⟩
    | error fault => exact .inr ⟨_, rfl, rfl⟩

lemma holdsNumber_text (pid : UInt32) : HoldsNumber (Utf8.encode (text pid)) pid.toNat :=
  ⟨text pid, rfl, denotes_text pid⟩

/-- **A file is read as the number of 32 bits that it holds**: as a text, with white space around an
optional plus sign and digits. Any other file is refused for its data, and no file is no number.
What is written for a number is read as that number. -/
theorem read_iff_holdsNumber :
    (∀ (fs : Files) path content, fs.find path = .ok (.file content) →
      (∀ pid : UInt32, read fs path = .ok (some pid) ↔ HoldsNumber content pid.toNat) ∧
      ((∀ n < 2 ^ 32, ¬ HoldsNumber content n) →
        ∃ e, read fs path = .error e ∧ e.isInvalidData)) ∧
    (∀ (fs : Files) path, fs.find path = .error .notFound → read fs path = .ok none) ∧
    ∀ pid : UInt32, HoldsNumber (Utf8.encode (text pid)) pid.toNat ∧
      ∀ (fs gs : Files) path, create fs path pid = .ok gs →
        (∃ d, gs.find path = .ok (.device d)) ∨
          gs.find path = .ok (.file (Utf8.encode (text pid))) ∧
            read gs path = .ok (some pid) := by
  refine ⟨fun fs path content hfind => ?_, fun fs path hfind => ?_, fun pid => ?_⟩
  · rw [read_of_find hfind]
    refine ⟨fun pid => ofContent_eq_iff, fun hnone => ?_⟩
    obtain ⟨pid, hpid⟩ | hrefused := ofContent_cases content
    · exact absurd (ofContent_eq_iff.mp hpid) (hnone pid.toNat pid.toNat_lt)
    · exact hrefused
  · simp [read, Files.readText, Files.read, hfind, ofText, Bind.bind, Except.bind]
  · refine ⟨holdsNumber_text pid, fun fs gs path hcreate => ?_⟩
    refine (find_create hcreate).imp id fun hfind => ⟨hfind, ?_⟩
    rw [read_of_find hfind]
    exact ofContent_eq_iff.mpr (holdsNumber_text pid)

/-- A number with a sign, leading zeros and white space of several kinds around it, a number that is
too large, and no text. -/
def pidFiles : Files where
  entries := [
    (["signed"], .file (Utf8.encode "\u00A0+0042\n")),
    (["large"], .file (Utf8.encode "4294967296")),
    (["bytes"], .file [0x34, 0x32, 0xFF])]

theorem read_iff_holdsNumber_signed :
    read pidFiles "signed" = .ok (some 42) ∧ HoldsNumber (Utf8.encode "\u00A0+0042\n") 42 ∧
      (∃ e, read pidFiles "large" = .error e ∧ e.isInvalidData) ∧
      (∃ e, read pidFiles "bytes" = .error e ∧ e.isInvalidData) ∧
      read pidFiles "none" = .ok none ∧
      ∃ gs, create pidFiles "bytes" 7 = .ok gs ∧ read gs "bytes" = .ok (some 7) := by
  have hsigned : pidFiles.find "signed" = .ok (.file (Utf8.encode "\u00A0+0042\n")) := by
    decide +kernel
  have hlarge : pidFiles.find "large" = .ok (.file (Utf8.encode "4294967296")) := by
    decide +kernel
  have hbytes : pidFiles.find "bytes" = .ok (.file [0x34, 0x32, 0xFF]) := by decide +kernel
  have hnone : pidFiles.find "none" = .error .notFound := by decide +kernel
  obtain ⟨hfile, hmissing, hmade⟩ := read_iff_holdsNumber
  have hread : read pidFiles "signed" = .ok (some 42) := by decide +kernel
  -- a file that is not read as a number holds none
  have hrefused {path : String} {content : Bytes} (hfind : pidFiles.find path = .ok (.file content))
      (hfails : (read pidFiles path).toOption = none) :
      ∃ e, read pidFiles path = .error e ∧ e.isInvalidData := by
    obtain ⟨hiff, herror⟩ := hfile pidFiles path content hfind
    refine herror fun n hn hholds => ?_
    have hnumber : (UInt32.ofNat n).toNat = n := UInt32.toNat_ofNat_of_lt' hn
    have hok := (hiff (UInt32.ofNat n)).mpr (hnumber.symm ▸ hholds)
    simp [hok, Except.toOption] at hfails
  have hcreate : create pidFiles "bytes" 7 =
      .ok (pidFiles.set ["bytes"] (.file (Utf8.encode (text 7)))) := by cbv
  have hagain : (pidFiles.set ["bytes"] (.file (Utf8.encode (text 7)))).find "bytes" =
      .ok (.file (Utf8.encode (text 7))) := by decide +kernel
  obtain ⟨d, hdevice⟩ | ⟨-, hback⟩ := (hmade 7).2 _ _ _ hcreate
  · simp [hagain] at hdevice
  · exact ⟨hread, ((hfile _ _ _ hsigned).1 42).mp hread, hrefused hlarge (by decide +kernel),
      hrefused hbytes (by decide +kernel), hmissing _ _ hnone, _, hcreate, hback⟩

end PidFile

end ProvenanceRelay
