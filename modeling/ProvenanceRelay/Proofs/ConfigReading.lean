import Mathlib
import ProvenanceRelay.Config.Reader
import ProvenanceRelay.Proofs.TomlBounds

/-!
What it takes to read a configuration.

A section is a list of slots. Each has a key and a format, and is read if its setting is, or has its
default if the setting is missing; a section is read if it has settings by name and all of its slots
are read. So what holds of every slot holds of the sections, however many settings they have.
-/

namespace ProvenanceRelay.Config

open Toml (Setting Value)

/-! ### Formats -/

/-- How the values of a type are read and written: what is written is read back, and the integers
that a text can have are written again. -/
structure Format (α : Type) where
  read : Value → Option α
  write : α → Setting
  read_write (a : α) : read (write a).toValue = some a
  fits {v : Value} {a : α} (hv : v.Bounded) (h : read v = some a) : (write a).fits = true

lemma unsigned?_of_lt {m n : ℕ} (h : n < m) : unsigned? (m - 1) (.integer n) = some n := by
  rw [unsigned?, if_pos ⟨by omega, by omega⟩, Int.toNat_natCast]

lemma fits_of_word? {v : Value} {n : UInt64} (hv : v.Bounded) (h : word? v = some n) :
    (word n).fits = true := by
  obtain ⟨m, hm, rfl⟩ := Option.map_eq_some_iff.mp h
  cases hv with
  | @integer n hbound =>
    rw [unsigned?] at hm
    split_ifs at hm with hrange
    obtain rfl := Option.some.inj hm
    have hsize : (UInt64.ofNat n.toNat).toNat = n.toNat := by
      rw [UInt64.toNat_ofNat', Nat.mod_eq_of_lt]
      have hmax := Toml.maxInteger_eq
      omega
    simp only [word, Setting.fits, decide_eq_true_eq, hsize]
    omega
  | _ => cases hm

namespace Format

def string : Format String where
  read := string?
  write := .string
  read_write _ := rfl
  fits _ _ := rfl

def boolean : Format Bool where
  read := boolean?
  write := .boolean
  read_write _ := rfl
  fits _ _ := rfl

def strings : Format (List String) where
  read := strings?
  write := .strings
  read_write xs := by
    show (xs.map Value.string).mapM string? = some xs
    induction xs with
    | nil => rfl
    | cons x xs ih => simp [string?, ih]
  fits _ _ := rfl

def word : Format UInt64 where
  read := word?
  write := Config.word
  read_write n := by
    rw [Config.word, Setting.toValue, word?, unsigned?_of_lt n.toNat_lt_size]
    exact congrArg some (UInt64.ofNat_toNat)
  fits := fits_of_word?

def port : Format UInt16 where
  read := port?
  write n := .integer n.toNat
  read_write n := by
    rw [Setting.toValue, port?, unsigned?_of_lt n.toNat_lt_size]
    exact congrArg some (UInt16.ofNat_toNat)
  fits {_ n} _ _ := by
    have hn := n.toNat_lt
    simp only [Setting.fits, Toml.maxInteger_eq, decide_eq_true_eq]
    omega

end Format

/-! ### Slots -/

/-- A setting of a section whose settings have the defaults `d`. -/
structure Slot {S : Type} (d : S) where
  {α : Type}
  key : String
  get : S → α
  read : Value → Option α
  write : α → Option Setting
  read_write {a : α} {v : Setting} (h : write a = some v) : read v.toValue = some a
  /-- Nothing but the default is written by leaving it out. -/
  unset {a : α} (h : write a = none) : a = get d
  fits_default : ∀ v ∈ write (get d), v.fits = true
  fits {v : Value} {a : α} (hv : v.Bounded) (h : read v = some a) : ∀ w ∈ write a, w.fits = true

namespace Slot

variable {S : Type} {d s : S} {α : Type}

/-- A setting that is always written. -/
def always (key : String) (f : Format α) (get : S → α)
    (hd : (f.write (get d)).fits = true := by rfl) : Slot d where
  key := key
  get := get
  read := f.read
  write a := some (f.write a)
  read_write {a _} h := Option.some.inj h ▸ f.read_write a
  unset h := nomatch h
  fits_default := by simpa using hd
  fits hv h := by simpa using f.fits hv h

/-- A setting that is not written while it is not set. -/
def maybe (key : String) (f : Format α) (get : S → Option α) (hd : get d = none := by rfl) :
    Slot d where
  key := key
  get := get
  read v := some <$> f.read v
  write a := a.map f.write
  read_write h := by
    obtain ⟨a, rfl, rfl⟩ := Option.map_eq_some_iff.mp h
    simp [f.read_write]
  unset h := by rw [hd, Option.map_eq_none_iff.mp h]
  fits_default := by simp [hd]
  fits hv h := by
    obtain ⟨a, ha, rfl⟩ := Option.map_eq_some_iff.mp h
    simpa using f.fits hv ha

def entry (x : Slot d) (s : S) : String × Option Setting := (x.key, x.write (x.get s))

/-- A section has from its settings what the slot is for. -/
def Holds (es : List (String × Value)) (s : S) (x : Slot d) : Prop :=
  setting es x.key x.read (x.get d) = some (x.get s)

lemma Holds.get_eq {x : Slot d} {es : List (String × Value)} (h : x.Holds es s)
    (hkey : es.lookup x.key = none) : x.get s = x.get d := by
  rw [Holds, setting, hkey] at h
  exact (Option.some.inj h).symm

end Slot

/-! ### Lists of slots -/

namespace Slot

variable {S : Type} {d s : S} {es : List (String × Value)}

/-- A value for each slot. -/
def Tuple : List (Slot d) → Type
  | [] => Unit
  | x :: xs => x.α × Tuple xs

def tuple (s : S) : (xs : List (Slot d)) → Tuple xs
  | [] => ()
  | x :: xs => (x.get s, tuple s xs)

/-- Reads one slot after the other, and goes on with their values. -/
def gather (es : List (String × Value)) : (xs : List (Slot d)) → (Tuple xs → Option S) → Option S
  | [], next => next ()
  | x :: xs, next =>
    (setting es x.key x.read (x.get d)).bind fun a => gather es xs fun t => next (a, t)

/-- The settings give the slots these values. -/
def Give (es : List (String × Value)) : (xs : List (Slot d)) → Tuple xs → Prop
  | [], _ => True
  | x :: xs, (a, t) => setting es x.key x.read (x.get d) = some a ∧ Give es xs t

lemma give_tuple_iff {xs : List (Slot d)} :
    Give es xs (tuple s xs) ↔ ∀ x ∈ xs, x.Holds es s := by
  induction xs with
  | nil => simp [Give]
  | cons x xs ih => rw [List.forall_mem_cons, ← ih]; rfl

lemma gather_eq_some_iff {xs : List (Slot d)} {next : Tuple xs → Option S} :
    gather es xs next = some s ↔ ∃ t, Give es xs t ∧ next t = some s := by
  induction xs with
  | nil => exact ⟨fun h => ⟨(), trivial, h⟩, fun ⟨_, _, h⟩ => h⟩
  | cons x xs ih =>
    rw [gather, Option.bind_eq_some_iff]
    constructor
    · rintro ⟨a, ha, h⟩
      obtain ⟨t, ht, h⟩ := ih.mp h
      exact ⟨(a, t), ⟨ha, ht⟩, h⟩
    · rintro ⟨⟨a, t⟩, ⟨ha, ht⟩, h⟩
      exact ⟨a, ha, ih.mpr ⟨t, ht, h⟩⟩

end Slot

/-! ### Sections -/

open Slot (Tuple tuple gather)

/-- A section that is read slot by slot. -/
structure Schema {S : Type} (d : S) where
  slots : List (Slot d)
  make : Tuple slots → S
  settings : S → Settings
  read : Value → Option S
  distinct : (slots.map (·.key)).Nodup
  make_tuple (s : S) : make (tuple s slots) = s
  tuple_make (t : Tuple slots) : tuple (make t) slots = t
  settings_eq (s : S) : settings s = slots.map (·.entry s)
  read_eq (v : Value) :
    read v = (named? ((settings d).map (·.1)) v).bind fun es =>
      gather es slots fun t => some (make t)

lemma Schema.read_eq_some_iff {S : Type} {d s : S} (x : Schema d) {v : Value} :
    x.read v = some s ↔
      ∃ es, named? ((x.settings d).map (·.1)) v = some es ∧ ∀ y ∈ x.slots, y.Holds es s := by
  rw [x.read_eq, Option.bind_eq_some_iff]
  refine exists_congr fun es => and_congr_right fun _ => ?_
  rw [Slot.gather_eq_some_iff, ← Slot.give_tuple_iff]
  constructor
  · rintro ⟨t, ht, h⟩
    obtain rfl := Option.some.inj h
    rwa [x.tuple_make]
  · exact fun h => ⟨_, h, congrArg some (x.make_tuple s)⟩

def relaySchema : Schema ({} : RelaySettings) where
  slots := [.always "short_channel_prefix" .string (·.shortPrefix),
    .always "long_channel_prefix" .string (·.longPrefix),
    .maybe "cpus" .word (·.cpus),
    .always "pid_file" .string (·.pidFile),
    .always "self_exclusion" .boolean (·.selfExclusion),
    .always "self_file" .string (·.selfFile),
    .always "pin_readers" .boolean (·.pinReaders),
    .always "idle_sleep_ms" .word (·.idleSleep),
    .always "poll_timeout_ms" .word (·.pollTimeout),
    .always "records_per_drain" .word (·.recordsPerDrain),
    .always "startup_timeout_ms" .word (·.startupTimeout),
    .always "stop_timeout_ms" .word (·.stopTimeout)]
  make := fun (a, b, c, d, e, f, g, h, i, j, k, l, ()) => ⟨a, b, c, d, e, f, g, h, i, j, k, l⟩
  settings := relaySettings
  read := relay?
  distinct := by simp [Slot.always, Slot.maybe]
  make_tuple _ := rfl
  tuple_make _ := rfl
  settings_eq _ := rfl
  read_eq _ := by unfold relay?; rfl

def outputSchema : Schema ({} : Output.OutputConfig) where
  slots := [.maybe "file" .string (·.file),
    .always "query_mode" .boolean (·.queryMode),
    .always "suppress" .strings (·.suppress),
    .always "resolve_names" .boolean (·.resolveNames)]
  make := fun (a, b, c, d, ()) => ⟨a, b, c, d⟩
  settings := outputSettings
  read := output?
  distinct := by simp [Slot.always, Slot.maybe]
  make_tuple _ := rfl
  tuple_make _ := rfl
  settings_eq _ := rfl
  read_eq _ := by unfold output?; rfl

def loggingSchema : Schema ({} : LoggingSettings) where
  slots := [.always "level" .string (·.level), .always "format" .string (·.format)]
  make := fun (a, b, ()) => ⟨a, b⟩
  settings := loggingSettings
  read := logging?
  distinct := by simp [Slot.always]
  make_tuple _ := rfl
  tuple_make _ := rfl
  settings_eq _ := rfl
  read_eq _ := by unfold logging?; rfl

def metricsSchema : Schema ({} : MetricsSettings) where
  slots := [.always "enabled" .boolean (·.enabled),
    .always "bind_address" .string (·.bindAddress),
    .always "port" .port (·.port),
    .always "report_interval_secs" .word (·.reportInterval)]
  make := fun (a, b, c, d, ()) => ⟨a, b, c, d⟩
  settings := metricsSettings
  read := metrics?
  distinct := by simp [Slot.always]
  make_tuple _ := rfl
  tuple_make _ := rfl
  settings_eq _ := rfl
  read_eq _ := by unfold metrics?; rfl

lemma ofTable?_eq_some_iff {es : List (String × Value)} {c : Config} :
    ofTable? es = some c ↔
      setting es "relay" relay? {} = some c.relay ∧
      setting es "output" output? {} = some c.output ∧
      setting es "logging" logging? {} = some c.logging ∧
      setting es "metrics" metrics? {} = some c.metrics := by
  unfold ofTable?
  simp only [Option.bind_eq_bind, Option.bind_eq_some_iff]
  constructor
  · rintro ⟨_, h₁, _, h₂, _, h₃, _, h₄, ⟨⟩⟩
    exact ⟨h₁, h₂, h₃, h₄⟩
  · rintro ⟨h₁, h₂, h₃, h₄⟩
    exact ⟨_, h₁, _, h₂, _, h₃, _, h₄, rfl⟩

end ProvenanceRelay.Config
