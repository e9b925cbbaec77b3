import Mathlib
import ProvenanceRelay.Config.Check
import ProvenanceRelay.Config.Store
import ProvenanceRelay.Proofs.ConfigText
import ProvenanceRelay.Proofs.FilePlaces
import ProvenanceRelay.Proofs.Utf8Text

/-!
A configuration that is saved is loaded back.

Any store loads it from the file that it is saved to. A configuration that has been loaded can be
saved again unless a string has 256 quotes of one kind in a row.
-/

namespace ProvenanceRelay

open Files

namespace Config

variable {c : Config} {fs : Files} {path text : String}

lemma print_eq_ok_iff : c.print = .ok text ↔ c.text = .ok text := by
  unfold print
  cases c.text <;> simp

lemma load_eq_ok (hread : fs.read path = .ok (Text.Utf8.encode text))
    (htext : ofText? text = some c) : load fs path = .ok c := by
  have hreadText : fs.readText path = .ok text := by
    simp [readText, hread, Text.Utf8.decode?_encode, Bind.bind, Except.bind]
  simp [load, ofFile, hreadText, htext]

lemma exists_save (hprint : c.print = .ok text) {p : Place} (htarget : fs.target path = .ok p)
    (hdevice : ∀ d, fs.lookup p ≠ some (.device d)) :
    ∃ gs, c.save fs path = .ok gs ∧ gs.read path = .ok (Text.Utf8.encode text) := by
  obtain ⟨gs, hwrite, hread⟩ := exists_write htarget hdevice (Text.Utf8.encode text)
  exact ⟨gs, by simp [save, hprint, hwrite], hread⟩

lemma not_longQuotes {s : String} (h : s.length < 256) : ¬ Toml.LongQuotes s := by
  rintro (hquotes | hquotes) <;>
    · have hlength := hquotes.length_le
      rw [List.length_replicate, String.length_toList] at hlength
      omega

/-- **A configuration that is saved is loaded back.** If all its integers have 64 bits with a sign,
a configuration is saved unless a string has 256 quotes of one kind in a row, and then it has no
text. What is saved is the text of no other configuration, and any store that loads the file has
it. A configuration that has been loaded has no integers but such. -/
theorem saved_loads_back (c : Config) :
    ((∀ n ∈ c.integers, n < 2 ^ 63) → (∀ t ∈ c.texts, ¬ Toml.LongQuotes t) →
      ∃ text, c.print = .ok text) ∧
    ((∀ n ∈ c.integers, n < 2 ^ 63) → ∀ t ∈ c.texts, Toml.LongQuotes t →
      c.print = .error (.unprintable .quotes)) ∧
    (∀ text, c.print = .ok text → ofText? text = some c ∧
      ∀ (s : ConfigStore) (fs : Files) (path : String) (p : Place), s.config = c →
        fs.target path = .ok p → (∀ d, fs.lookup p ≠ some (.device d)) →
          ∃ gs, s.perform fs (.save path) = { store := s, files := gs } ∧
            gs.read path = .ok (Text.Utf8.encode text) ∧
            ∀ u : ConfigStore, u.perform gs (.load path) =
              { store := ⟨c, some path⟩, files := gs }) ∧
    ∀ text, ofText? text = some c → ∀ n ∈ c.integers, n < 2 ^ 63 := by
  refine ⟨fun hintegers htexts => ?_, fun hintegers t ht hlong => ?_, fun text hprint => ?_,
    fun text htext => integers_of_ofText? htext⟩
  · obtain ⟨text, htext⟩ := exists_text_eq hintegers htexts
    exact ⟨text, print_eq_ok_iff.mpr htext⟩
  · rw [print, text_eq_error hintegers ht hlong]
  · have htext := ofText?_text (print_eq_ok_iff.mp hprint)
    refine ⟨htext, fun s fs path p hs htarget hdevice => ?_⟩
    obtain ⟨gs, hsave, hread⟩ := exists_save hprint htarget hdevice
    refine ⟨gs, ?_, hread, fun u => ?_⟩
    · simp only [ConfigStore.perform, hs, hsave]
    · simp only [ConfigStore.perform, load_eq_ok hread htext]

/-- A configuration with quotes of both kinds, a backslash, a control character, a line end and an
empty string, with no output file and with no processors set. -/
theorem saved_loads_back_quotes :
    let c : Config := {
      relay := { shortPrefix := "", recordsPerDrain := 0x7FFFFFFFFFFFFFFF }
      output := { suppress := ["'''", "\"\"\"\\\x01"] }
      logging := { level := "\r\n\t" } }
    ∃ text, c.print = .ok text ∧ ofText? text = some c := by
  intro c
  obtain ⟨hprint, -, hload, -⟩ := saved_loads_back c
  have hintegers : ∀ n ∈ c.integers, n < 2 ^ 63 := by decide
  have hshort : ∀ t ∈ c.texts, t.length < 256 := by decide
  obtain ⟨text, htext⟩ := hprint hintegers fun t ht => not_longQuotes (hshort t ht)
  exact ⟨text, htext, (hload text htext).1⟩

/-- An accepted configuration that is not saved anywhere: its PID file has a name of 256 quotes. -/
theorem exists_unsaved :
    let c : Config := { relay := { pidFile := String.ofList (List.replicate 256 '\'') } }
    c.fault? = none ∧ (∀ n ∈ c.integers, n < 2 ^ 63) ∧ c.print = .error (.unprintable .quotes) ∧
      ∀ (s : ConfigStore) (fs : Files) (path : String), s.config = c →
        s.perform fs (.save path) =
          { store := s, files := fs, error := some (.unprintable .quotes) } := by
  intro c
  have hintegers : ∀ n ∈ c.integers, n < 2 ^ 63 := by decide
  have hname : c.relay.pidFile ∈ c.texts := by
    simp [texts, given, settings, relaySettings, Toml.Setting.texts]
  have hlong : Toml.LongQuotes c.relay.pidFile := by
    have hquotes : c.relay.pidFile.toList = List.replicate 256 '\'' := String.toList_ofList ..
    exact .inr (hquotes ▸ List.infix_rfl)
  have hprint : c.print = .error (.unprintable .quotes) := by
    rw [print, text_eq_error hintegers hname hlong]
  refine ⟨by decide, hintegers, hprint, fun s fs path hs => ?_⟩
  simp only [ConfigStore.perform, save, hs, hprint]

end Config

end ProvenanceRelay
