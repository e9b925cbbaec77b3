import Mathlib
import ProvenanceRelay.Proofs.ConfigReading
import ProvenanceRelay.Proofs.TomlBounds
import ProvenanceRelay.Proofs.TomlTables

/-!
The text of a configuration.

The settings that are set stand in it under their names. The two that may be unset are missing from
it then, and unset is the default that they are read with. What stands in the way of a text are
integers beyond 64 bits with a sign, which no text holds, and strings with a long run of quotes.
-/

namespace ProvenanceRelay

open Toml (Setting Value Section)

/-! ### What cannot be written -/

namespace Toml

def Setting.integers : Setting → List ℕ
  | integer n => [n]
  | string _ | strings _ | boolean _ => []

def Setting.texts : Setting → List String
  | string s => [s]
  | strings xs => xs
  | integer _ | boolean _ => []

/-- The string has more quotes of one kind in a row than can be written. -/
def LongQuotes (s : String) : Prop :=
  List.replicate 256 '"' <:+: s.toList ∨ List.replicate 256 '\'' <:+: s.toList

lemma Setting.fits_iff (v : Setting) : v.fits = true ↔ ∀ n ∈ v.integers, n < 2 ^ 63 := by
  cases v with
  | integer n =>
    simp only [fits, integers, maxInteger_eq, decide_eq_true_eq, List.mem_singleton, forall_eq]
    omega
  | _ => simp [fits, integers]

variable {c : Char} {as : List Char}

lemma prefix_append_cons (h : c ∉ as) (front back : List Char) :
    as <+: front ++ c :: back ↔ as <+: front := by
  constructor
  · intro hprefix
    rcases List.prefix_or_prefix_of_prefix hprefix (List.prefix_append _ _) with hfront | ⟨t, rfl⟩
    · exact hfront
    · rw [List.prefix_append_right_inj] at hprefix
      cases t with
      | nil => simp
      | cons b t =>
        obtain ⟨u, hu⟩ := hprefix
        obtain rfl : b = c := (List.cons.inj hu).1
        simp at h
  · exact fun hprefix => hprefix.trans (List.prefix_append _ _)

/-- What has no `c` does not reach over one. -/
lemma infix_append_cons (h : c ∉ as) {front back : List Char} :
    as <:+: front ++ c :: back ↔ as <:+: front ∨ as <:+: back := by
  induction front with
  | nil =>
    have hnil := prefix_append_cons h [] back
    rw [List.nil_append] at hnil
    rw [List.nil_append, List.infix_cons_iff, hnil, List.infix_nil, List.prefix_nil]
  | cons b front ih =>
    rw [List.cons_append, List.infix_cons_iff, List.infix_cons_iff, ih, ← List.cons_append,
      prefix_append_cons h, or_assoc]

lemma replicate_infix_replicate (q : Char) (k m : ℕ) :
    List.replicate k q <:+: List.replicate m q ↔ k ≤ m := by
  constructor
  · intro h
    simpa using h.length_le
  · intro h
    obtain ⟨d, rfl⟩ := Nat.exists_eq_add_of_le h
    rw [List.replicate_add]
    exact (List.prefix_append _ _).isInfix

/-- How long the longest run of quotes is, with the quotes that stand before the text. -/
lemma longestRun_le_iff (q : Char) (k m : ℕ) (cs : List Char) :
    longestRun q k cs ≤ m ↔ ¬ List.replicate (m + 1) q <:+: List.replicate k q ++ cs := by
  induction cs generalizing k with
  | nil =>
    rw [longestRun, List.append_nil, replicate_infix_replicate]
    omega
  | cons c cs ih =>
    rw [longestRun]
    split
    · next hc => rw [ih, hc, replicate_append_cons]
    · next hc =>
      have hmem : c ∉ List.replicate (m + 1) q := fun h => hc (List.eq_of_mem_replicate h)
      have hrest := ih 0
      rw [List.replicate_zero, List.nil_append] at hrest
      rw [infix_append_cons hmem, max_le_iff, hrest, replicate_infix_replicate, not_or,
        Nat.succ_le_iff, not_lt]

lemma quotable_iff (s : String) : quotable s = true ↔ ¬ LongQuotes s := by
  have hdouble := longestRun_le_iff '"' 0 255 s.toList
  have hsingle := longestRun_le_iff '\'' 0 255 s.toList
  rw [List.replicate_zero, List.nil_append] at hdouble hsingle
  simp only [quotable, maxQuotes, Bool.and_eq_true, decide_eq_true_eq, hdouble, hsingle, LongQuotes,
    not_or]

lemma Setting.quotable_iff (v : Setting) :
    v.quotable = true ↔ ∀ t ∈ v.texts, ¬ LongQuotes t := by
  cases v <;> simp [Setting.quotable, texts, Toml.quotable_iff]

end Toml

namespace Config

/-- The settings that are set, by name. -/
def setOnly (s : Settings) : List (String × Setting) :=
  s.filterMap fun (k, v) => v.map fun v => (k, v)

def sections (c : Config) : List Section := c.settings.map fun (name, s) => ⟨name, setOnly s⟩

/-- All values of settings that are set. -/
def given (c : Config) : List Setting := c.settings.flatMap fun (_, s) => s.filterMap (·.2)

def integers (c : Config) : List ℕ := c.given.flatMap Setting.integers

def texts (c : Config) : List String := c.given.flatMap Setting.texts

variable {c : Config}

/-! ### The text -/

lemma forall_given_iff {P : Setting → Prop} :
    (∀ v ∈ c.given, P v) ↔ ∀ s ∈ c.settings, ∀ e ∈ s.2, ∀ v ∈ e.2, P v := by
  simp only [given, List.forall_mem_flatMap, List.forall_mem_filterMap, Option.mem_def]

lemma forall_sections_iff {P : Setting → Prop} :
    (∀ s ∈ c.sections, ∀ e ∈ s.settings, P e.2) ↔ ∀ v ∈ c.given, P v := by
  have hset (s : Settings) :
      (∀ e ∈ setOnly s, P e.2) ↔ ∀ e ∈ s, ∀ v ∈ e.2, P v := by
    rw [setOnly, List.forall_mem_filterMap]
    refine forall₂_congr fun e _ => ?_
    rcases e with ⟨k, _ | v⟩ <;> simp
  simp only [forall_given_iff, sections, List.forall_mem_map, hset]

lemma fits_iff : c.sections.all (·.fits) = true ↔ ∀ n ∈ c.integers, n < 2 ^ 63 := by
  simp only [integers, List.forall_mem_flatMap, ← Setting.fits_iff, ← forall_sections_iff,
    Section.fits, List.all_eq_true]

lemma quotable_iff : c.sections.all (·.quotable) = true ↔ ∀ t ∈ c.texts, ¬ Toml.LongQuotes t := by
  simp only [texts, List.forall_mem_flatMap, ← Setting.quotable_iff, ← forall_sections_iff,
    Section.quotable, List.all_eq_true]

/-- A configuration has a text unless an integer or a string stands in the way. -/
lemma exists_text_eq (hintegers : ∀ n ∈ c.integers, n < 2 ^ 63)
    (htexts : ∀ t ∈ c.texts, ¬ Toml.LongQuotes t) : ∃ s, c.text = .ok s := by
  have hprint : Toml.print c.sections = .ok ("\n".intercalate (c.sections.map (·.text))) := by
    rw [Toml.print, if_neg (by rw [not_not, fits_iff]; exact hintegers),
      if_neg (by rw [not_not, quotable_iff]; exact htexts)]
  exact ⟨_, hprint⟩

lemma text_eq_error (hintegers : ∀ n ∈ c.integers, n < 2 ^ 63) {t : String} (ht : t ∈ c.texts)
    (hlong : Toml.LongQuotes t) : c.text = .error .quotes := by
  show Toml.print c.sections = _
  rw [Toml.print, if_neg (by rw [not_not, fits_iff]; exact hintegers), if_pos]
  rw [quotable_iff]
  exact fun h => h t ht hlong

/-! ### The tables -/

lemma bare_names : ∀ e ∈ c.settings, ∀ k ∈ e.1 :: e.2.map (·.1), Toml.Bare k := by
  have hbare : ∀ e ∈ c.settings, ∀ k ∈ e.1 :: e.2.map (·.1),
      k ≠ "" ∧ k.toList.all Toml.isBareKey = true := by
    simp only [settings, relaySettings, outputSettings, loggingSettings, metricsSettings,
      List.map_cons, List.map_nil, List.forall_mem_cons, List.not_mem_nil, false_implies,
      implies_true, and_true]
    refine ⟨?_, ?_, ?_, ?_⟩ <;> decide
  intro e he k hk
  obtain ⟨hne, hall⟩ := hbare e he k hk
  exact ⟨String.toList_eq_nil_iff.not.mpr hne, List.all_eq_true.mp hall⟩

lemma nodup_names : ∀ e ∈ c.settings, (e.2.map (·.1)).Nodup := by
  simp [settings, relaySettings, outputSettings, loggingSettings, metricsSettings]

lemma map_setOnly (s : Settings) : ((setOnly s).map (·.1)).Sublist (s.map (·.1)) := by
  induction s with
  | nil => simp [setOnly]
  | cons e s ih =>
    obtain ⟨k, v⟩ := e
    cases v with
    | none => simpa [setOnly] using ih.cons k
    | some v => simpa [setOnly] using ih.cons_cons k

lemma plain_sections : ∀ s ∈ c.sections, s.Plain := by
  intro s hs
  obtain ⟨e, he, rfl⟩ := List.mem_map.mp hs
  obtain ⟨hname, hkeys⟩ := List.forall_mem_cons.mp (bare_names e he)
  have hsub := map_setOnly e.2
  exact {
    name := hname
    keys := fun f hf => hkeys f.1 (hsub.subset (List.mem_map.mpr ⟨f, hf, rfl⟩))
    distinct := (nodup_names e he).sublist hsub }

lemma nodup_sections : (c.sections.map (·.name)).Nodup := by
  simp [sections, settings]

/-! ### Reading it back -/

/-- The settings as a text gives them. -/
def values (s : Settings) : List (String × Value) := (setOnly s).map fun (k, v) => (k, v.toValue)

lemma lookup_values {s : Settings} (hdistinct : (s.map (·.1)).Nodup) (key : String) :
    (values s).lookup key = (s.lookup key).bind (·.map Setting.toValue) := by
  induction s with
  | nil => rfl
  | cons e s ih =>
    obtain ⟨k, v⟩ := e
    obtain ⟨hk, hdistinct⟩ := List.nodup_cons.mp hdistinct
    have ih := ih hdistinct
    rcases eq_or_ne key k with rfl | hne
    · cases v with
      | none =>
        have hrest : (values s).lookup key = none := by
          rw [ih, List.lookup_eq_none_iff.mpr]
          · rfl
          · intro e he
            have hne : key ≠ e.1 := fun h => hk (List.mem_map.mpr ⟨e, he, h.symm⟩)
            simpa using hne
        simpa [values, setOnly] using hrest
      | some v => simp [values, setOnly]
    · cases v with
      | none => simpa [values, setOnly, List.lookup_cons, beq_false_of_ne hne] using ih
      | some v => simpa [values, setOnly, List.lookup_cons, beq_false_of_ne hne] using ih

/-- A setting that is set is read from what is written for it, and one that is not has its
default. -/
lemma setting_values {α : Type} {s : Settings} (hdistinct : (s.map (·.1)).Nodup) (key : String)
    (read : Value → Option α) (d : α) :
    setting (values s) key read d =
      ((s.lookup key).bind id).elim (some d) fun v => read v.toValue := by
  rw [setting, lookup_values hdistinct]
  rcases s.lookup key with _ | (_ | v) <;> rfl

lemma lookup_map_entry {S : Type} {d s : S} {xs : List (Slot d)}
    (hdistinct : (xs.map (·.key)).Nodup) {x : Slot d} (hx : x ∈ xs) :
    (xs.map (·.entry s)).lookup x.key = some (x.write (x.get s)) := by
  obtain ⟨before, after, rfl⟩ := List.append_of_mem hx
  refine List.lookup_eq_some_iff.mpr
    ⟨before.map (·.entry s), after.map (·.entry s), by simp [Slot.entry], ?_⟩
  rw [List.forall_mem_map]
  intro y hy
  rw [List.map_append, List.nodup_append] at hdistinct
  have hne := hdistinct.2.2 y.key (List.mem_map.mpr ⟨y, hy, rfl⟩) x.key (by simp)
  simpa [Slot.entry] using hne.symm

/-- What is written for a slot is read as what it holds. -/
lemma Slot.holds_values {S : Type} {d s : S} {xs : List (Slot d)}
    (hdistinct : (xs.map (·.key)).Nodup) :
    ∀ x ∈ xs, x.Holds (values (xs.map (·.entry s))) s := by
  intro x hx
  have hkeys : ((xs.map (·.entry s)).map (·.1)).Nodup := by rwa [List.map_map]
  rw [Slot.Holds, setting_values hkeys, lookup_map_entry hdistinct hx]
  cases hwrite : x.write (x.get s) with
  | none => exact congrArg some (x.unset hwrite).symm
  | some v => exact x.read_write hwrite

lemma Schema.read_values {S : Type} {d : S} (x : Schema d) (s : S) :
    x.read (.table (values (x.settings s))) = some s := by
  rw [x.read_eq_some_iff, x.settings_eq s]
  exact ⟨_, rfl, Slot.holds_values x.distinct⟩

lemma values_sections (c : Config) : Section.values c.sections =
    [("relay", .table (values (relaySettings c.relay))),
      ("output", .table (values (outputSettings c.output))),
      ("logging", .table (values (loggingSettings c.logging))),
      ("metrics", .table (values (metricsSettings c.metrics)))] := rfl

lemma ofTable?_values (c : Config) : ofTable? (Section.values c.sections) = some c := by
  rw [ofTable?_eq_some_iff, values_sections]
  exact ⟨relaySchema.read_values _, outputSchema.read_values _, loggingSchema.read_values _,
    metricsSchema.read_values _⟩

/-- **The text of a configuration denotes that configuration.** -/
theorem ofText?_text {s : String} (h : c.text = .ok s) : ofText? s = some c := by
  rw [ofText?, Toml.parse?_print plain_sections nodup_sections h]
  exact ofTable?_values c

/-! ### Integers that have been read -/

def Fits (s : Settings) : Prop := ∀ e ∈ s, ∀ v ∈ e.2, v.fits = true

section

variable {es : List (String × Value)} {key : String} {v : Value}

lemma setting_of_bounded {α : Type} {P : α → Prop} {read : Value → Option α} {d a : α}
    (hes : ∀ e ∈ es, e.2.Bounded) (hd : P d)
    (hread : ∀ {v a}, v.Bounded → read v = some a → P a)
    (h : setting es key read d = some a) : P a := by
  unfold setting at h
  split at h
  · exact Option.some.inj h ▸ hd
  · next v hv =>
    obtain ⟨before, after, rfl, -⟩ := List.lookup_eq_some_iff.mp hv
    exact hread (hes (key, v) (by simp)) h

lemma bounded_named? {keys : List String} (hv : v.Bounded) (h : named? keys v = some es) :
    ∀ e ∈ es, e.2.Bounded := by
  unfold named? at h
  split at h
  · obtain rfl := Option.some.inj h
    cases hv with
    | table hes => exact hes
  · obtain rfl := Option.some.inj h
    cases hv with
    | array hvs => exact fun e he => hvs e.2 (List.of_mem_zip he).2
  · obtain rfl := Option.some.inj h
    simp
  · cases h

namespace Schema

variable {S : Type} {d s : S} (x : Schema d)

lemma fits_default : Fits (x.settings d) := by
  rw [x.settings_eq]
  exact List.forall_mem_map.mpr fun y _ => y.fits_default

lemma fits (hv : v.Bounded) (h : x.read v = some s) : Fits (x.settings s) := by
  obtain ⟨es, hes, hslots⟩ := x.read_eq_some_iff.mp h
  rw [x.settings_eq]
  refine List.forall_mem_map.mpr fun y hy => ?_
  exact setting_of_bounded (P := fun a => ∀ w ∈ y.write a, w.fits = true) (bounded_named? hv hes)
    y.fits_default y.fits (hslots y hy)

/-- The settings of a section that has been read, or is missing. -/
lemma fits_setting {name : String} (hes : ∀ e ∈ es, e.2.Bounded)
    (h : setting es name x.read d = some s) : Fits (x.settings s) :=
  setting_of_bounded (P := fun s => Fits (x.settings s)) hes x.fits_default x.fits h

end Schema

/-- **The integers of a configuration that has been read can be written.** -/
theorem integers_of_ofText? {s : String} (h : ofText? s = some c) :
    ∀ n ∈ c.integers, n < 2 ^ 63 := by
  obtain ⟨es, hes, h⟩ := Option.bind_eq_some_iff.mp h
  obtain ⟨hrelay, houtput, hlogging, hmetrics⟩ := ofTable?_eq_some_iff.mp h
  have hbounded := Toml.bounded_parse? hes
  have hall : ∀ s ∈ c.settings, Fits s.2 := by
    rw [settings, List.forall_mem_cons, List.forall_mem_cons, List.forall_mem_cons,
      List.forall_mem_singleton]
    exact ⟨relaySchema.fits_setting hbounded hrelay, outputSchema.fits_setting hbounded houtput,
      loggingSchema.fits_setting hbounded hlogging, metricsSchema.fits_setting hbounded hmetrics⟩
  rw [← fits_iff]
  simp only [Section.fits, List.all_eq_true]
  rw [forall_sections_iff (P := fun v => v.fits = true), forall_given_iff]
  exact hall

end

end Config

end ProvenanceRelay
