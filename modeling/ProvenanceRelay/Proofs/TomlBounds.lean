import Mathlib
import ProvenanceRelay.Toml.Document

/-!
The integers of a text have 64 bits with a sign.

That is checked where an integer is read, and tables are only put together from values that have
been read.
-/

namespace ProvenanceRelay.Toml

/-- All integers in a value have 64 bits with a sign. -/
inductive Value.Bounded : Value → Prop where
  | string (s : String) : Bounded (.string s)
  | integer {n : ℤ} (h : n ≤ maxInteger) : Bounded (.integer n)
  | float (s : String) : Bounded (.float s)
  | boolean (b : Bool) : Bounded (.boolean b)
  | datetime (s : String) : Bounded (.datetime s)
  | array {vs : List Value} (h : ∀ v ∈ vs, Bounded v) : Bounded (.array vs)
  | table {es : List (String × Value)} (h : ∀ e ∈ es, Bounded e.2) : Bounded (.table es)

inductive Node.Bounded : Node → Prop where
  | value {v : Value} (h : v.Bounded) : Bounded (.value v)
  | table {origin : Origin} {es : List (String × Node)} (h : ∀ e ∈ es, Bounded e.2) :
      Bounded (.table origin es)
  | tables {ts : List (Origin × List (String × Node))} (h : ∀ t ∈ ts, ∀ e ∈ t.2, Bounded e.2) :
      Bounded (.tables ts)

/-! ### Scalars -/

lemma maxInteger_eq : maxInteger = 2 ^ 63 - 1 := by decide

lemma le_of_inRange? {m n : ℤ} (h : inRange? m = some n) : n ≤ maxInteger := by
  unfold inRange? at h
  split_ifs at h with hrange
  exact Option.some.inj h ▸ hrange.2

lemma le_of_integer? {cs : List Char} {n : ℤ} (h : integer? cs = some n) : n ≤ maxInteger := by
  unfold integer? based? at h
  split at h <;> obtain ⟨ds, -, h⟩ := Option.bind_eq_some_iff.mp h <;> exact le_of_inRange? h

lemma bounded_scalar? {cs rest : Text} {v : Value} (h : scalar? cs = some (v, rest)) :
    v.Bounded := by
  unfold scalar? at h
  rcases htoken : scalarText cs with ⟨token, more⟩
  rw [htoken] at h
  obtain ⟨w, hw, heq⟩ := Option.map_eq_some_iff.mp h
  obtain rfl : w = v := congrArg Prod.fst heq
  split at hw
  · exact Option.some.inj hw ▸ .boolean true
  split at hw
  · exact Option.some.inj hw ▸ .boolean false
  split at hw
  · exact Option.some.inj hw ▸ .float _
  split at hw
  · next n hn => exact Option.some.inj hw ▸ .integer (le_of_integer? hn)
  split at hw
  · exact Option.some.inj hw ▸ .datetime _
  split at hw
  · exact Option.some.inj hw ▸ .float _
  · cases hw

/-! ### Tables under construction -/

def Entries.Bounded (es : Entries) : Prop := ∀ e ∈ es, e.2.Bounded

/-- A change of a table that puts bounded values in. -/
def KeepsBounds (f : Origin → Entries → Option (Origin × Entries)) : Prop :=
  ∀ {o o' : Origin} {es es' : Entries}, es.Bounded → f o es = some (o', es') → es'.Bounded

variable {es : Entries} {k : String} {n : Node}

lemma Entries.Bounded.nil : Entries.Bounded [] := List.forall_mem_nil _

lemma Entries.Bounded.append (h : es.Bounded) (hn : n.Bounded) :
    Entries.Bounded (es ++ [(k, n)]) := by
  intro e he
  rcases List.mem_append.mp he with he | he
  · exact h e he
  · rw [List.mem_singleton.mp he]
    exact hn

lemma Entries.Bounded.replace (h : es.Bounded) (hn : n.Bounded) :
    Entries.Bounded (Toml.replace k n es) := by
  intro e he
  obtain ⟨f, hf, rfl⟩ := List.mem_map.mp he
  split
  · exact hn
  · exact h f hf

lemma Entries.Bounded.of_lookup (h : es.Bounded) (hk : es.lookup k = some n) : n.Bounded := by
  obtain ⟨before, after, rfl, -⟩ := List.lookup_eq_some_iff.mp hk
  exact h (k, n) (by simp)

lemma keepsBounds_descend {f : Origin → Entries → Option (Origin × Entries)} (hf : KeepsBounds f)
    (dotted : Bool) (path : List String) : KeepsBounds (descend dotted f path) := by
  induction path with
  | nil => exact hf
  | cons k ks ih =>
    intro o o' es es' hes h
    rw [descend] at h
    split at h
    · obtain ⟨⟨p, sub⟩, hsub, h⟩ := Option.bind_eq_some_iff.mp h
      obtain ⟨-, rfl⟩ := Prod.mk.inj (Option.some.inj h)
      exact hes.append (.table (ih .nil hsub))
    · cases h
    · next p sub hk =>
      split_ifs at h
      obtain ⟨⟨p', sub'⟩, hsub, h⟩ := Option.bind_eq_some_iff.mp h
      obtain ⟨-, rfl⟩ := Prod.mk.inj (Option.some.inj h)
      cases hes.of_lookup hk with
      | table hbounded => exact hes.replace (.table (ih hbounded hsub))
    · next ts hk =>
      split at h
      · cases h
      · next p sub hlast =>
        obtain ⟨⟨p', sub'⟩, hsub, h⟩ := Option.bind_eq_some_iff.mp h
        obtain ⟨-, rfl⟩ := Prod.mk.inj (Option.some.inj h)
        cases hes.of_lookup hk with
        | tables hbounded =>
          refine hes.replace (.tables fun t ht => ?_)
          rcases List.mem_append.mp ht with ht | ht
          · exact hbounded t (List.mem_of_mem_dropLast ht)
          · rw [List.mem_singleton.mp ht]
            exact ih (hbounded _ (List.mem_of_getLast? hlast)) hsub

lemma keepsBounds_addEntry {v : Value} (hv : v.Bounded) (path : List String) :
    KeepsBounds (addEntry path v) := by
  intro o o' es es' hes h
  unfold addEntry at h
  split at h
  · cases h
  · refine keepsBounds_descend ?_ _ _ hes h
    intro o o' es es' hes h
    dsimp only at h
    split_ifs at h
    obtain ⟨-, rfl⟩ := Prod.mk.inj (Option.some.inj h)
    exact hes.append (.value hv)

lemma keepsBounds_openTable (k : String) : KeepsBounds (Document.openTable k) := by
  intro o o' es es' hes h
  unfold Document.openTable at h
  split at h
  · obtain ⟨-, rfl⟩ := Prod.mk.inj (Option.some.inj h)
    exact hes.append (.table (List.forall_mem_nil _))
  · next sub hk =>
    obtain ⟨-, rfl⟩ := Prod.mk.inj (Option.some.inj h)
    cases hes.of_lookup hk with
    | table hbounded => exact hes.replace (.table hbounded)
  · cases h

lemma keepsBounds_openElement (k : String) : KeepsBounds (Document.openElement k) := by
  intro o o' es es' hes h
  unfold Document.openElement at h
  split at h
  · obtain ⟨-, rfl⟩ := Prod.mk.inj (Option.some.inj h)
    exact hes.append (.tables (by simp))
  · next ts hk =>
    obtain ⟨-, rfl⟩ := Prod.mk.inj (Option.some.inj h)
    cases hes.of_lookup hk with
    | tables hbounded =>
      refine hes.replace (.tables fun t ht => ?_)
      rcases List.mem_append.mp ht with ht | ht
      · exact hbounded t ht
      · simp [List.mem_singleton.mp ht]
  · cases h

/-! ### Values of tables -/

mutual

lemma bounded_toValue : (n : Node) → n.Bounded → n.toValue.Bounded
  | .value v, .value h => by rwa [Node.toValue]
  | .table _ es, .table h => by
    rw [Node.toValue]
    exact .table (bounded_entriesToValue es h)
  | .tables ts, .tables h => by
    rw [Node.toValue]
    exact .array (bounded_tablesToValue ts h)

lemma bounded_entriesToValue : (es : List (String × Node)) → (∀ e ∈ es, e.2.Bounded) →
    ∀ e ∈ entriesToValue es, e.2.Bounded
  | [], _ => by simp [entriesToValue]
  | (k, n) :: es, h => by
    rw [entriesToValue, List.forall_mem_cons]
    obtain ⟨hn, hes⟩ := List.forall_mem_cons.mp h
    exact ⟨bounded_toValue n hn, bounded_entriesToValue es hes⟩

lemma bounded_tablesToValue : (ts : List (Origin × List (String × Node))) →
    (∀ t ∈ ts, ∀ e ∈ t.2, e.2.Bounded) → ∀ v ∈ tablesToValue ts, v.Bounded
  | [], _ => by simp [tablesToValue]
  | (_, es) :: ts, h => by
    rw [tablesToValue, List.forall_mem_cons]
    obtain ⟨hes, hts⟩ := List.forall_mem_cons.mp h
    exact ⟨.table (bounded_entriesToValue es hes), bounded_tablesToValue ts hts⟩

end

/-! ### Values -/

/-- With fuel `n`, bounded values, elements and members are read. -/
structure ReadsBounded (n : ℕ) : Prop where
  value : ∀ {d cs v rest}, value? n d cs = some (v, rest) → v.Bounded
  elements : ∀ {d cs vs rest}, elements? n d cs = some (vs, rest) → ∀ v ∈ vs, v.Bounded
  members : ∀ {d origin es cs es' rest}, Entries.Bounded es →
    members? n d origin es cs = some (es', rest) → Entries.Bounded es'

variable {m : ℕ}

lemma ReadsBounded.value_succ (ih : ReadsBounded m) {d : ℕ} {cs rest : Text} {v : Value}
    (h : value? (m + 1) d cs = some (v, rest)) : v.Bounded := by
  rw [value?.eq_def] at h
  cases cs with
  | nil => cases h
  | cons c cs =>
    dsimp only at h
    split at h
    · obtain ⟨⟨s, more⟩, -, heq⟩ := Option.map_eq_some_iff.mp h
      exact (Prod.mk.inj heq).1 ▸ .string _
    split at h
    · split at h
      · cases h
      · obtain ⟨⟨vs, more⟩, hvs, heq⟩ := Option.map_eq_some_iff.mp h
        exact (Prod.mk.inj heq).1 ▸ .array (ih.elements hvs)
    split at h
    · split at h
      · cases h
      · split at h
        · obtain ⟨rfl, -⟩ := Prod.mk.inj (Option.some.inj h)
          exact .table (List.forall_mem_nil _)
        · obtain ⟨⟨es, more⟩, hes, heq⟩ := Option.map_eq_some_iff.mp h
          exact (Prod.mk.inj heq).1 ▸ .table (bounded_entriesToValue es (ih.members .nil hes))
    · exact bounded_scalar? h

lemma ReadsBounded.elements_succ (ih : ReadsBounded m) {d : ℕ} {cs rest : Text} {vs : List Value}
    (h : elements? (m + 1) d cs = some (vs, rest)) : ∀ v ∈ vs, v.Bounded := by
  rw [elements?] at h
  split at h
  · cases h
  · obtain ⟨rfl, -⟩ := Prod.mk.inj (Option.some.inj h)
    simp
  · split at h
    · cases h
    · next v more hv =>
      split at h
      · obtain ⟨⟨ws, more⟩, hws, heq⟩ := Option.map_eq_some_iff.mp h
        obtain ⟨rfl, -⟩ := Prod.mk.inj heq
        exact List.forall_mem_cons.mpr ⟨ih.value hv, ih.elements hws⟩
      · obtain ⟨rfl, -⟩ := Prod.mk.inj (Option.some.inj h)
        exact List.forall_mem_singleton.mpr (ih.value hv)
      · cases h

lemma ReadsBounded.members_succ (ih : ReadsBounded m) {d : ℕ} {origin : Origin} {es es' : Entries}
    {cs rest : Text} (hes : es.Bounded) (h : members? (m + 1) d origin es cs = some (es', rest)) :
    es'.Bounded := by
  rw [members?] at h
  split at h
  · next path more hpath =>
    split at h
    · cases h
    · next v more hv =>
      split at h
      · cases h
      · next origin' sub hadd =>
        have hsub := keepsBounds_addEntry (ih.value hv) path hes hadd
        split at h
        · exact ih.members hsub h
        · obtain ⟨rfl, -⟩ := Prod.mk.inj (Option.some.inj h)
          exact hsub
        · cases h
  · cases h

lemma readsBounded (n : ℕ) : ReadsBounded n := by
  induction n with
  | zero =>
    refine ⟨?_, ?_, ?_⟩
    · intro d cs v rest h
      rw [value?.eq_def] at h
      cases h
    · intro d cs vs rest h
      rw [elements?] at h
      cases h
    · intro d origin es cs es' rest _ h
      rw [members?] at h
      cases h
  | succ n ih => exact ⟨ih.value_succ, ih.elements_succ, ih.members_succ⟩

/-! ### Documents -/

def Line.Bounded : Line → Prop
  | .entry _ v => v.Bounded
  | .table _ | .element _ => True

lemma bounded_line? {cs rest : Text} {l : Line} (h : line? cs = some (l, rest)) : l.Bounded := by
  unfold line? at h
  split at h
  · obtain ⟨⟨p, more⟩, -, heq⟩ := Option.map_eq_some_iff.mp h
    exact (Prod.mk.inj heq).1 ▸ trivial
  · obtain ⟨⟨p, more⟩, -, heq⟩ := Option.map_eq_some_iff.mp h
    exact (Prod.mk.inj heq).1 ▸ trivial
  · split at h
    · obtain ⟨⟨v, more⟩, hv, heq⟩ := Option.map_eq_some_iff.mp h
      exact (Prod.mk.inj heq).1 ▸ (readsBounded _).value hv
    · cases h

lemma bounded_linesFrom? {n : ℕ} {cs : Text} {ls : List Line} (h : linesFrom? n cs = some ls) :
    ∀ l ∈ ls, l.Bounded := by
  induction n generalizing cs ls with
  | zero => cases h
  | succ n ih =>
    rw [linesFrom?] at h
    split at h
    · obtain rfl := Option.some.inj h
      simp
    · exact ih h
    · obtain ⟨⟨l, rest⟩, hl, h⟩ := Option.bind_eq_some_iff.mp h
      obtain ⟨more, hmore, h⟩ := Option.bind_eq_some_iff.mp h
      split at h
      · obtain rfl := Option.some.inj h
        exact List.forall_mem_singleton.mpr (bounded_line? hl)
      · obtain ⟨ms, hms, h⟩ := Option.bind_eq_some_iff.mp h
        obtain rfl := Option.some.inj h
        exact List.forall_mem_cons.mpr ⟨bounded_line? hl, ih hms⟩

lemma bounded_openAt {make : String → Origin → Entries → Option (Origin × Entries)}
    (hmake : ∀ k, KeepsBounds (make k)) {d d' : Document} {path : List String}
    (hd : Entries.Bounded d.entries) (h : d.openAt make path = some d') :
    Entries.Bounded d'.entries := by
  unfold Document.openAt at h
  split at h
  · cases h
  · obtain ⟨⟨o, es⟩, hes, rfl⟩ := Option.map_eq_some_iff.mp h
    exact keepsBounds_descend (hmake _) _ _ hd hes

lemma bounded_add {d d' : Document} {l : Line} (hd : Entries.Bounded d.entries) (hl : l.Bounded)
    (h : d.add l = some d') : Entries.Bounded d'.entries := by
  cases l with
  | table path => exact bounded_openAt keepsBounds_openTable hd h
  | element path => exact bounded_openAt keepsBounds_openElement hd h
  | entry path v =>
    obtain ⟨⟨o, es⟩, hes, rfl⟩ := Option.map_eq_some_iff.mp h
    exact keepsBounds_descend (keepsBounds_addEntry hl path) _ _ hd hes

/-- **All integers of a text have 64 bits with a sign.** -/
theorem bounded_parse? {s : String} {es : List (String × Value)} (h : parse? s = some es) :
    ∀ e ∈ es, e.2.Bounded := by
  obtain ⟨ls, hls, h⟩ := Option.bind_eq_some_iff.mp h
  obtain ⟨d, hd, h⟩ := Option.bind_eq_some_iff.mp h
  obtain rfl := Option.some.inj h
  have hfold {ls : List Line} {d d' : Document} (hls : ∀ l ∈ ls, l.Bounded)
      (hd : Entries.Bounded d.entries) (h : ls.foldlM Document.add d = some d') :
      Entries.Bounded d'.entries := by
    induction ls generalizing d with
    | nil => exact Option.some.inj h ▸ hd
    | cons l ls ih =>
      obtain ⟨hl, hls⟩ := List.forall_mem_cons.mp hls
      obtain ⟨d₁, hadd, h⟩ := Option.bind_eq_some_iff.mp h
      exact ih hls (bounded_add hd hl hadd) h
  exact bounded_entriesToValue _ (hfold (bounded_linesFrom? hls) .nil hd)

end ProvenanceRelay.Toml
