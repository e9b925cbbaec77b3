import Mathlib
import ProvenanceRelay.Config.Session
import ProvenanceRelay.Proofs.ConfigReading

/-!
The configuration in use after any requests.

It is that of the last success, since a request that fails leaves the store alone. A load reads
nothing but the text of the file: what the text does not set has its default, whatever was in use
before.
-/

namespace ProvenanceRelay

namespace Config

open Toml (Value)

/-! ### What a text leaves unset -/

/-- The value of a setting, which is none if it is not set. -/
def setting? (c : Config) (name key : String) : Option (Option Toml.Setting) :=
  (c.settings.lookup name).bind (·.lookup key)

def keys (name : String) : List String :=
  ((({} : Config).settings.lookup name).getD []).map (·.1)

/-- A text with these entries gives a setting its value. -/
def Sets (entries : List (String × Value)) (name key : String) : Prop :=
  ∃ v es, entries.lookup name = some v ∧ named? (keys name) v = some es ∧
    (es.lookup key).isSome = true

section

variable {S : Type} {d s : S}

lemma lookup_entries {xs : List (Slot d)} {es : List (String × Value)}
    (h : ∀ x ∈ xs, x.Holds es s) {key : String} (hkey : es.lookup key = none) :
    (xs.map (·.entry s)).lookup key = (xs.map (·.entry d)).lookup key := by
  induction xs with
  | nil => rfl
  | cons x xs ih =>
    obtain ⟨hx, hxs⟩ := List.forall_mem_cons.mp h
    simp only [List.map_cons, Slot.entry, List.lookup_cons]
    split
    · next heq =>
      obtain rfl : key = x.key := by simpa using heq
      rw [hx.get_eq hkey]
    · exact ih hxs

/-- A section that has been read differs from the defaults only in the settings that are there. -/
lemma Schema.lookup_settings (x : Schema d) {v : Value} (h : x.read v = some s) :
    ∃ es, named? ((x.settings d).map (·.1)) v = some es ∧
      ∀ key, es.lookup key = none → (x.settings s).lookup key = (x.settings d).lookup key := by
  obtain ⟨es, hes, hslots⟩ := x.read_eq_some_iff.mp h
  refine ⟨es, hes, fun key hkey => ?_⟩
  rw [x.settings_eq, x.settings_eq]
  exact lookup_entries hslots hkey

end

variable {entries : List (String × Value)} {name key : String}

/-- The settings of a section that the text does not give, be the section there or not. -/
lemma Schema.lookup_of_not_sets {S : Type} {d s : S} (x : Schema d)
    (hname : keys name = (x.settings d).map (·.1)) (h : setting entries name x.read d = some s)
    (hset : ¬ Sets entries name key) : (x.settings s).lookup key = (x.settings d).lookup key := by
  cases hv : entries.lookup name with
  | none =>
    rw [setting, hv] at h
    exact congrArg (fun s => (x.settings s).lookup key) (Option.some.inj h).symm
  | some v =>
    rw [setting, hv] at h
    obtain ⟨es, hes, hunset⟩ := x.lookup_settings h
    refine hunset key (Option.not_isSome_iff_eq_none.mp fun hkey => hset ?_)
    exact ⟨v, es, hv, hname ▸ hes, hkey⟩

/-- **A setting that the text does not give has its default.** -/
lemma setting?_of_not_sets {c : Config} (h : ofTable? entries = some c)
    (hset : ¬ Sets entries name key) : c.setting? name key = ({} : Config).setting? name key := by
  obtain ⟨hrelay, houtput, hlogging, hmetrics⟩ := ofTable?_eq_some_iff.mp h
  by_cases h₁ : name = "relay"
  · subst h₁
    exact relaySchema.lookup_of_not_sets rfl hrelay hset
  by_cases h₂ : name = "output"
  · subst h₂
    exact outputSchema.lookup_of_not_sets rfl houtput hset
  by_cases h₃ : name = "logging"
  · subst h₃
    exact loggingSchema.lookup_of_not_sets rfl hlogging hset
  by_cases h₄ : name = "metrics"
  · subst h₄
    exact metricsSchema.lookup_of_not_sets rfl hmetrics hset
  · simp only [setting?, settings, List.lookup_cons, beq_false_of_ne h₁, beq_false_of_ne h₂,
      beq_false_of_ne h₃, beq_false_of_ne h₄, List.lookup_nil]

end Config

namespace ConfigStore

open Config

/-! ### What requests do -/

lemma perform_load (s : ConfigStore) (fs : Files) (path : String) :
    s.perform fs (.load path) = match (fs.readText path).toOption.bind ofText? with
      | some c => { store := ⟨c, some path⟩, files := fs }
      | none => { store := s, files := fs, error := (s.perform fs (.load path)).error } := by
  unfold perform load ofFile
  cases hread : fs.readText path with
  | error e => simp [hread, Except.toOption]
  | ok text => cases h : ofText? text <;> simp [hread, h, Except.toOption]

lemma store_perform_save (s : ConfigStore) (fs : Files) (path : String) :
    (s.perform fs (.save path)).store = s := by
  unfold perform
  dsimp only
  split <;> rfl

lemma load_of_text (s : ConfigStore) {fs : Files} {path text : String} {c : Config}
    (hread : fs.readText path = .ok text) (htext : ofText? text = some c) :
    s.perform fs (.load path) = { store := ⟨c, some path⟩, files := fs } := by
  simp [perform, load, ofFile, hread, htext]

lemma text_of_load {s : ConfigStore} {fs : Files} {path : String}
    (h : (s.perform fs (.load path)).error = none) :
    ∃ text c, fs.readText path = .ok text ∧ ofText? text = some c := by
  unfold perform load ofFile at h
  cases hread : fs.readText path with
  | error e => simp [hread] at h
  | ok text =>
    cases htext : ofText? text with
    | none => simp [hread, htext] at h
    | some c => exact ⟨text, c, rfl, htext⟩

lemma store_of_error {s : ConfigStore} {fs : Files} {r : Request}
    (h : (s.perform fs r).error ≠ none) : (s.perform fs r).store = s := by
  cases r with
  | load path =>
    rw [perform_load] at h ⊢
    split
    · next c hc => simp [hc] at h
    · rfl
  | save path => exact s.store_perform_save fs path
  | set c => exact absurd rfl h

lemma files_of_unprintable {s : ConfigStore} {fs : Files} {path : String} {f : Toml.PrintFault}
    (h : (s.perform fs (.save path)).error = some (.unprintable f)) :
    (s.perform fs (.save path)).files = fs := by
  unfold perform save at h ⊢
  cases hprint : s.config.print with
  | error e => rfl
  | ok text => cases hwrite : fs.write path (Text.Utf8.encode text) <;> simp [hprint, hwrite] at h

namespace Session

lemma held?_eq_some_iff {s : Session} {path : String} {c : Config} :
    s.held? path = some c ↔ ∃ text, s.files.readText path = .ok text ∧ ofText? text = some c := by
  unfold held?
  cases s.files.readText path <;> simp [Except.toOption]

lemma load_succeeds_iff {s : Session} {path : String} :
    (s.outcome (.load path)).error = none ↔
      ∃ c, s.success? (.request (.load path)) = some (.loaded path c) := by
  constructor
  · intro h
    obtain ⟨text, c, hread, htext⟩ := text_of_load h
    refine ⟨c, ?_⟩
    rw [success?, held?_eq_some_iff.mpr ⟨text, hread, htext⟩]
    rfl
  · rintro ⟨c, hc⟩
    obtain ⟨c', hheld, -⟩ := Option.map_eq_some_iff.mp hc
    obtain ⟨text, hread, htext⟩ := held?_eq_some_iff.mp hheld
    rw [outcome, load_of_text s.store hread htext]

lemma store_step (s : Session) (e : Event) :
    (s.step e).store.config = ((s.success? e).map Success.config).getD s.store.config ∧
      (s.step e).store.path = ((s.success? e).bind Success.path?).or s.store.path := by
  rcases e with (path | path | c) | fs
  · unfold step outcome success? held?
    dsimp only
    rw [perform_load]
    cases (s.files.readText path).toOption.bind ofText? <;> exact ⟨rfl, rfl⟩
  · unfold step outcome success?
    dsimp only
    rw [store_perform_save]
    exact ⟨rfl, rfl⟩
  · exact ⟨rfl, rfl⟩
  · exact ⟨rfl, rfl⟩

/-- The store has the configuration of the last success, and the path of the last load. -/
lemma store_run (s : Session) (es : List Event) :
    (s.run es).store.config =
        ((s.successes es).getLast?.map Success.config).getD s.store.config ∧
      (s.run es).store.path =
        ((s.successes es).filterMap Success.path?).getLast?.or s.store.path := by
  induction es generalizing s with
  | nil => exact ⟨rfl, rfl⟩
  | cons e es ih =>
    obtain ⟨hconfig, hpath⟩ := ih (s.step e)
    obtain ⟨hconfig', hpath'⟩ := s.store_step e
    rw [run_cons, successes, hconfig, hpath, hconfig', hpath', List.filterMap_append,
      List.getLast?_append, List.getLast?_append, Option.or_assoc]
    constructor
    · cases ((s.step e).successes es).getLast? <;> cases s.success? e <;> rfl
    · cases s.success? e with
      | none => rfl
      | some x => cases hx : x.path? <;> simp [hx]

/-- **The configuration in use is that of the last success, and a load is told by the text.**
After any requests, and whatever others do to the files, the store has the configuration of the
last load or setting that succeeded, and the path of the last load. A load succeeds if and only if
its file holds a configuration. A request that fails leaves the store alone, and a save that is
refused since its configuration has no text leaves the files alone. What a load gets is the same
for every store and every file with the same text, and a setting that the text does not give has
its default. -/
theorem last_good_kept (s : Session) (es : List Event) :
    let t := s.run es
    t.store.config = ((s.successes es).getLast?.map Success.config).getD s.store.config ∧
    t.store.path = ((s.successes es).filterMap Success.path?).getLast?.or s.store.path ∧
    (∀ path, (t.outcome (.load path)).error = none ↔
      ∃ c, t.success? (.request (.load path)) = some (.loaded path c)) ∧
    (∀ r, (t.outcome r).error ≠ none → (t.outcome r).store = t.store) ∧
    (∀ path f, (t.outcome (.save path)).error = some (.unprintable f) →
      (t.outcome (.save path)).files = t.files) ∧
    ∀ path, (t.outcome (.load path)).error = none →
      ∃ text entries, t.files.readText path = .ok text ∧ Toml.parse? text = some entries ∧
        (∀ (u : Session) (place : String), u.files.readText place = .ok text →
          (u.outcome (.load place)).error = none ∧
            (u.outcome (.load place)).store.config = (t.outcome (.load path)).store.config) ∧
        ∀ name key, ¬ Sets entries name key →
          (t.outcome (.load path)).store.config.setting? name key =
            ({} : Config).setting? name key := by
  intro t
  obtain ⟨hconfig, hpath⟩ := s.store_run es
  refine ⟨hconfig, hpath, fun path => load_succeeds_iff, fun r => store_of_error,
    fun path f => files_of_unprintable, fun path h => ?_⟩
  obtain ⟨text, c, hread, htext⟩ := text_of_load h
  obtain ⟨entries, hentries, hc⟩ := Option.bind_eq_some_iff.mp htext
  refine ⟨text, entries, hread, hentries, fun u place hu => ?_, fun name key hset => ?_⟩
  · unfold outcome
    rw [load_of_text u.store hu htext, load_of_text t.store hread htext]
    exact ⟨rfl, rfl⟩
  · unfold outcome
    rw [load_of_text t.store hread htext]
    exact setting?_of_not_sets hc hset

end Session

end ConfigStore

end ProvenanceRelay
