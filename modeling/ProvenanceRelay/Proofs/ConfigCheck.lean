import Mathlib
import ProvenanceRelay.Config.Check
import ProvenanceRelay.Proofs.AddressGrammar
import ProvenanceRelay.Proofs.Kinds

/-!
Which configurations pass the check, and what is said of the others.

A configuration has to meet ten conditions, which are stated here in exact arithmetic. The check
accepts it if it meets all of them, and otherwise tells of the first that it does not meet.
-/

namespace ProvenanceRelay

namespace Config

/-! ### What is asked of a configuration -/

inductive Condition where
  | cpus | recordsPerDrain | pollTimeout | stopTimeout | kinds | level | format | port | bindAddress
  | reportInterval
  deriving DecidableEq, Repr

def Condition.order : List Condition :=
  [.cpus, .recordsPerDrain, .pollTimeout, .stopTimeout, .kinds, .level, .format, .port,
    .bindAddress, .reportInterval]

def IsKindName (name : String) : Prop := ∃ k : Kind, k.name = name

/-- What a condition says. The conditions on the port and the address are on metrics that are
served. -/
def Meets (c : Config) : Condition → Prop
  | .cpus => ∀ n, c.relay.cpus = some n → 1 ≤ n.toNat ∧ n.toNat ≤ 256
  | .recordsPerDrain => 0 < c.relay.recordsPerDrain.toNat
  | .pollTimeout => 0 < c.relay.pollTimeout.toNat
  | .stopTimeout =>
    c.relay.pollTimeout.toNat + c.relay.idleSleep.toNat < c.relay.stopTimeout.toNat
  | .kinds => ∀ name ∈ c.output.suppress, IsKindName name
  | .level => c.logging.level ∈ ["error", "warn", "info", "debug", "trace"]
  | .format => c.logging.format ∈ ["json", "pretty", "compact"]
  | .port => c.metrics.enabled = true → 0 < c.metrics.port.toNat
  | .bindAddress => c.metrics.enabled = true → Net.IsAddressText c.metrics.bindAddress
  | .reportInterval => 0 < c.metrics.reportInterval.toNat

/-- What is said of a configuration that does not meet a condition. -/
def Tells (c : Config) : Condition → ConfigFault → Prop
  | .cpus, f => ∃ n, c.relay.cpus = some n ∧ f = .cpus n
  | .recordsPerDrain, f => f = .recordsPerDrain
  | .pollTimeout, f => f = .pollTimeout
  | .stopTimeout, f => ∃ latency : UInt64,
      latency.toNat = min (c.relay.pollTimeout.toNat + c.relay.idleSleep.toNat) (2 ^ 64 - 1) ∧
      f = .stopTimeout c.relay.stopTimeout latency
  | .kinds, f => ∃ before name after, c.output.suppress = before ++ name :: after ∧
      (∀ known ∈ before, IsKindName known) ∧ ¬ IsKindName name ∧ f = .kind name
  | .level, f => f = .level c.logging.level
  | .format, f => f = .format c.logging.format
  | .port, f => f = .port c.metrics.port
  | .bindAddress, f => f = .bindAddress c.metrics.bindAddress
  | .reportInterval, f => f = .reportInterval

/-! ### Faults by conditions -/

def faultsOf (c : Config) : Condition → List ConfigFault
  | .cpus => c.relay.cpus.elim [] fun n => when (n = 0 ∨ maxCpus < n.toNat) (.cpus n)
  | .recordsPerDrain => when (c.relay.recordsPerDrain = 0) .recordsPerDrain
  | .pollTimeout => when (c.relay.pollTimeout = 0) .pollTimeout
  | .stopTimeout => when (c.relay.stopTimeout ≤ latency c.relay)
      (.stopTimeout c.relay.stopTimeout (latency c.relay))
  | .kinds => outputFaults c.output
  | .level => when (c.logging.level ∉ levels) (.level c.logging.level)
  | .format => when (c.logging.format ∉ formats) (.format c.logging.format)
  | .port => when (c.metrics.enabled = true ∧ c.metrics.port = 0) (.port c.metrics.port)
  | .bindAddress =>
    when (c.metrics.enabled = true ∧ Net.IpAddress.parse? c.metrics.bindAddress = none)
      (.bindAddress c.metrics.bindAddress)
  | .reportInterval => when (c.metrics.reportInterval = 0) .reportInterval

lemma faults_eq_flatMap (c : Config) : c.faults = Condition.order.flatMap c.faultsOf := by
  simp [faults, relayFaults, outputFaults, loggingFaults, metricsFaults, Condition.order, faultsOf]

lemma mem_order (k : Condition) : k ∈ Condition.order := by cases k <;> decide

@[simp] lemma head?_when {p : Prop} [Decidable p] {f g : ConfigFault} :
    (when p f).head? = some g ↔ p ∧ g = f := by
  by_cases h : p <;> simp [when, h, eq_comm]

/-- What is found first in a list of lists is what is found first in the first that is not empty. -/
lemma head?_flatMap_eq_some {α β : Type} {f : α → List β} {xs : List α} {b : β} :
    (xs.flatMap f).head? = some b ↔ ∃ before x after, xs = before ++ x :: after ∧
      (∀ y ∈ before, f y = []) ∧ (f x).head? = some b := by
  simp only [List.head?_flatMap, List.findSome?_eq_some_iff, List.head?_eq_none_iff]
  constructor
  · rintro ⟨before, x, after, hxs, hx, hbefore⟩
    exact ⟨before, x, after, hxs, hbefore, hx⟩
  · rintro ⟨before, x, after, hxs, hbefore, hx⟩
    exact ⟨before, x, after, hxs, hx, hbefore⟩

/-! ### The conditions one by one -/

lemma toNat_latency (s : RelaySettings) :
    (latency s).toNat = min (s.pollTimeout.toNat + s.idleSleep.toNat) (2 ^ 64 - 1) := by
  have hsize : UInt64.size = 2 ^ 64 := rfl
  rw [latency, satAdd, hsize, UInt64.toNat_ofNat']
  omega

/-- The sum of the two waits is cut off only where no timeout could exceed it. -/
lemma latency_lt_iff (s : RelaySettings) :
    latency s < s.stopTimeout ↔
      s.pollTimeout.toNat + s.idleSleep.toNat < s.stopTimeout.toNat := by
  have hstop : s.stopTimeout.toNat < 2 ^ 64 := s.stopTimeout.toNat_lt
  rw [UInt64.lt_iff_toNat_lt, toNat_latency]
  omega

lemma ofName?_eq_none_iff {name : String} : Kind.ofName? name = none ↔ ¬ IsKindName name := by
  rw [Kind.ofName?, List.find?_eq_none]
  constructor
  · rintro h ⟨k, rfl⟩
    exact h k k.mem_all (by simp)
  · intro h k _ hname
    exact h ⟨k, by simpa using hname⟩

lemma parse?_eq_none_iff {s : String} :
    Net.IpAddress.parse? s = none ↔ ¬ Net.IsAddressText s := by
  rw [← Net.isSome_parse?_iff, Option.not_isSome_iff_eq_none]

lemma word_eq_zero_iff {n : UInt64} : n = 0 ↔ ¬ 0 < n.toNat := by
  rw [← UInt64.toNat_inj, UInt64.toNat_zero]
  omega

lemma head?_outputFaults (s : Output.OutputConfig) (f : ConfigFault) :
    (outputFaults s).head? = some f ↔ ∃ before name after, s.suppress = before ++ name :: after ∧
      (∀ known ∈ before, IsKindName known) ∧ ¬ IsKindName name ∧ f = .kind name := by
  have hknown : ∀ known g, when (Kind.ofName? known = none) g = [] ↔ IsKindName known := by
    intro known g
    simp [when, ofName?_eq_none_iff]
  simp only [outputFaults, head?_flatMap_eq_some, hknown, head?_when, ofName?_eq_none_iff]

/-- A fault is found at a condition that is not met, and the first one is what is told. -/
lemma head?_faultsOf (c : Config) (k : Condition) (f : ConfigFault) :
    (c.faultsOf k).head? = some f ↔ ¬ c.Meets k ∧ c.Tells k f := by
  cases k with
  | cpus =>
    cases hcpus : c.relay.cpus with
    | none => simp [faultsOf, Meets, Tells, hcpus]
    | some n =>
      have hrange : (n = 0 ∨ maxCpus < n.toNat) ↔ ¬ (1 ≤ n.toNat ∧ n.toNat ≤ 256) := by
        have hmax : maxCpus = 256 := rfl
        rw [word_eq_zero_iff, hmax]
        omega
      simp [faultsOf, Meets, Tells, hcpus, hrange]
  | recordsPerDrain => simp [faultsOf, Meets, Tells, word_eq_zero_iff]
  | pollTimeout => simp [faultsOf, Meets, Tells, word_eq_zero_iff]
  | stopTimeout =>
    -- the sum that is compared is cut off at the greatest word, which decides alike
    simp only [faultsOf, head?_when, Meets, Tells, ← latency_lt_iff, UInt64.not_lt]
    constructor
    · rintro ⟨hle, rfl⟩
      exact ⟨hle, latency c.relay, toNat_latency c.relay, rfl⟩
    · rintro ⟨hle, l, hl, rfl⟩
      rw [← toNat_latency, UInt64.toNat_inj] at hl
      exact ⟨hle, by rw [hl]⟩
  | kinds =>
    rw [faultsOf, head?_outputFaults, Meets, Tells]
    constructor
    · rintro ⟨before, name, after, hlist, hbefore, hname, rfl⟩
      refine ⟨fun hall => hname (hall name ?_), before, name, after, hlist, hbefore, hname, rfl⟩
      simp [hlist]
    · rintro ⟨-, htells⟩
      exact htells
  | level => simp [faultsOf, Meets, Tells, levels]
  | format => simp [faultsOf, Meets, Tells, formats]
  | port =>
    have hport : c.metrics.port = 0 ↔ ¬ 0 < c.metrics.port.toNat := by
      rw [← UInt16.toNat_inj, UInt16.toNat_zero]
      omega
    simp [faultsOf, Meets, Tells, hport]
  | bindAddress => simp [faultsOf, Meets, Tells, parse?_eq_none_iff]
  | reportInterval => simp [faultsOf, Meets, Tells, word_eq_zero_iff]

lemma exists_tells {c : Config} {k : Condition} (h : ¬ c.Meets k) : ∃ f, c.Tells k f := by
  cases k with
  | cpus =>
    simp only [Meets, not_forall] at h
    obtain ⟨n, hn, -⟩ := h
    exact ⟨_, n, hn, rfl⟩
  | stopTimeout => exact ⟨_, latency c.relay, toNat_latency c.relay, rfl⟩
  | kinds =>
    have hfound : outputFaults c.output ≠ [] := by
      simpa [Meets, outputFaults, when, ofName?_eq_none_iff] using h
    exact ⟨_, (head?_outputFaults c.output _).mp (List.head?_eq_some_head hfound)⟩
  | recordsPerDrain | pollTimeout | level | format | port | bindAddress | reportInterval =>
    exact ⟨_, rfl⟩

lemma faultsOf_eq_nil_iff {c : Config} {k : Condition} : c.faultsOf k = [] ↔ c.Meets k := by
  rw [← List.head?_eq_none_iff]
  constructor
  · intro hnone
    by_contra h
    obtain ⟨f, hf⟩ := exists_tells h
    have hsome := (head?_faultsOf c k f).mpr ⟨h, hf⟩
    rw [hnone] at hsome
    cases hsome
  · intro h
    rw [Option.eq_none_iff_forall_ne_some]
    intro f hsome
    exact ((head?_faultsOf c k f).mp hsome).1 h

/-- **What the check says of a configuration**: nothing if it meets all conditions, and otherwise
what is to be told of the first that it does not meet. -/
theorem fault?_iff (c : Config) :
    (c.fault? = none ↔ ∀ k, c.Meets k) ∧
    ∀ f, c.fault? = some f ↔ ∃ before k after, Condition.order = before ++ k :: after ∧
      (∀ j ∈ before, c.Meets j) ∧ ¬ c.Meets k ∧ c.Tells k f := by
  rw [fault?, faults_eq_flatMap]
  constructor
  · rw [List.head?_eq_none_iff, List.flatMap_eq_nil_iff]
    simp only [faultsOf_eq_nil_iff, mem_order, forall_true_left]
  · intro f
    simp only [head?_flatMap_eq_some, faultsOf_eq_nil_iff, head?_faultsOf]

/-- Waits whose sum is no word. -/
example :
    ({ relay := { pollTimeout := 18446744073709551615, stopTimeout := 18446744073709551615 } } :
        Config).fault? =
      some (.stopTimeout 18446744073709551615 18446744073709551615) := by
  decide +kernel

end Config

end ProvenanceRelay
