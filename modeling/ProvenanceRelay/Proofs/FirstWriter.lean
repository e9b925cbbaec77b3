import Mathlib
import ProvenanceRelay.NameTable.Threads

/-!
The first name of an identifier stays, whatever the order of the threads.

A history of answered requests is split by the first insert of an identifier: what is asked about
the identifier before it is told that there is no name, and what is asked after it is told that one.
`FirstWins` says so from the history alone; the table keeps to it because a request about one
identifier leaves what is told about the others alone.
-/

namespace ProvenanceRelay.NameTable

variable {i j : Identifier} {h : List Served} {x : Served}

/-! ### What histories tell -/

def Request.identifier? : Request → Option Identifier
  | .insert i _ | .lookup i | .contains i => some i
  | .size => none

namespace Served

/-- A request about the identifier with these bytes. -/
def About (i : Identifier) (x : Served) : Prop :=
  ∃ j, x.request.identifier? = some j ∧ j.bytes = i.bytes

def inserted? (x : Served) : Option Identifier :=
  match x.request with
  | .insert i _ => some i
  | _ => none

/-- The identifier that gets its name. -/
def bound? (x : Served) : Option Identifier :=
  match x.answer with
  | .inserted true => x.inserted?
  | _ => none

/-- What is told about an identifier that has a name or none. Without a name it is not inserted. -/
inductive Tells (i : Identifier) (name : Option String) : Served → Prop where
  | lookup (t : ℕ) : Tells i name ⟨t, .lookup i, .found name⟩
  | contains (t : ℕ) : Tells i name ⟨t, .contains i, .contained name.isSome⟩
  | refused (t : ℕ) (other : String) (named : name.isSome) :
      Tells i name ⟨t, .insert i other, .inserted false⟩

end Served

def insertions (h : List Served) : List Identifier := h.filterMap Served.inserted?

/-- A history in which the first insert of an identifier decides what is told about it. -/
inductive FirstWins (i : Identifier) : List Served → Option String → Prop where
  | unbound {h : List Served}
    (told : ∀ x ∈ h, x.About i → x.Tells i none) :
      FirstWins i h none
  | bound {before after : List Served} (t : ℕ) (name : String)
    (early : ∀ x ∈ before, x.About i → x.Tells i none)
    (late : ∀ x ∈ after, x.About i → x.Tells i (some name)) :
      FirstWins i (before ++ ⟨t, .insert i name, .inserted true⟩ :: after) (some name)

lemma Identifier.eq_of_bytes (h : i.bytes = j.bytes) : i = j := by
  obtain ⟨⟨bs, hbs⟩⟩ := i
  obtain ⟨⟨cs, hcs⟩⟩ := j
  obtain rfl : bs = cs := h
  rfl

lemma Served.about_iff : x.About i ↔ x.request.identifier? = some i := by
  constructor
  · rintro ⟨j, hj, hbytes⟩
    rw [hj, Identifier.eq_of_bytes hbytes]
  · intro hi
    exact ⟨i, hi, rfl⟩

lemma FirstWins.snoc {name : Option String} (hwins : FirstWins i h name)
    (hx : x.About i → x.Tells i name) : FirstWins i (h ++ [x]) name := by
  cases hwins with
  | unbound told =>
    refine .unbound fun y hy habout => ?_
    rcases List.mem_append.mp hy with hy | hy
    · exact told y hy habout
    · obtain rfl := List.mem_singleton.mp hy
      exact hx habout
  | bound t name early late =>
    rw [List.append_assoc, List.cons_append]
    refine .bound t name early fun y hy habout => ?_
    rcases List.mem_append.mp hy with hy | hy
    · exact late y hy habout
    · obtain rfl := List.mem_singleton.mp hy
      exact hx habout

lemma FirstWins.first (hwins : FirstWins i h none) (t : ℕ) (name : String) :
    FirstWins i (h ++ [⟨t, .insert i name, .inserted true⟩]) (some name) := by
  cases hwins with
  | unbound told => exact .bound t name told (by simp)

/-! ### What the table holds -/

def keys (t : NameTable) : List Identifier := t.entries.map Prod.fst

lemma mem_keys_iff (t : NameTable) : i ∈ t.keys ↔ t.contains i = true := by
  rw [contains, lookup, keys, Option.isSome_iff_ne_none, ne_eq, List.lookup_eq_none_iff]
  constructor
  · intro hi hnone
    obtain ⟨e, he, rfl⟩ := List.mem_map.mp hi
    exact absurd (hnone e he) (by simp)
  · intro hsome
    by_contra hi
    refine hsome fun e he => ?_
    have hne : i ≠ e.1 := fun heq => hi (heq ▸ List.mem_map_of_mem he)
    simpa using hne

lemma keys_insert (t : NameTable) (name : String) :
    (t.insert i name).keys = if t.contains i then t.keys else i :: t.keys := by
  unfold insert
  split <;> rfl

lemma tells_answer (t : NameTable) (thread : ℕ) {q : Request} (hq : q.identifier? = some i)
    (hfirst : ∀ name, q = .insert i name → t.contains i = true) :
    (⟨thread, q, (t.answer q).2⟩ : Served).Tells i (t.lookup i) := by
  cases q with
  | insert j name =>
    obtain rfl := Option.some.inj hq
    have hin : t.contains j = true := hfirst name rfl
    rw [answer, hin]
    exact .refused thread name hin
  | lookup j =>
    obtain rfl := Option.some.inj hq
    exact .lookup thread
  | contains j =>
    obtain rfl := Option.some.inj hq
    exact .contains thread
  | size => cases hq

lemma FirstWins.serve {t : NameTable} (hwins : FirstWins i h (t.lookup i)) (thread : ℕ)
    (q : Request) :
    FirstWins i (h ++ [⟨thread, q, (t.answer q).2⟩]) ((t.answer q).1.lookup i) := by
  by_cases hfirst : ∃ name, q = .insert i name ∧ t.contains i = false
  · -- this is the first insert of the identifier
    obtain ⟨name, rfl, hout⟩ := hfirst
    have hnone : t.lookup i = none := by simpa [contains] using hout
    have hsome : (t.insert i name).lookup i = some name := by
      rw [lookup_insert, if_pos rfl, hnone, Option.getD_none]
    rw [hnone] at hwins
    rw [answer, hout, hsome]
    exact hwins.first thread name
  · -- the request leaves the identifier as it is
    have hsame : (t.answer q).1.lookup i = t.lookup i := by
      cases q with
      | insert j name =>
        rw [answer, lookup_insert]
        by_cases hij : i = j
        · subst hij
          obtain ⟨n, hn⟩ : ∃ n, t.lookup i = some n := by
            rw [← Option.isSome_iff_exists]
            by_contra hout
            exact hfirst ⟨name, rfl, by simpa [contains] using hout⟩
          rw [if_pos rfl, hn, Option.getD_some]
        · rw [if_neg hij]
      | lookup j | contains j | size => rfl
    rw [hsame]
    refine hwins.snoc fun habout => ?_
    refine tells_answer t thread (Served.about_iff.mp habout) fun name hname => ?_
    by_contra hout
    exact hfirst ⟨name, hname, by simpa using hout⟩

/-! ### Threads -/

namespace Threads

/-- What holds of threads at work, whoever has been served. -/
structure Kept (programs : ℕ → List Request) (s : Threads) : Prop where
  program : ∀ t, (s.served.filter (·.thread = t)).map Served.request ++ s.todo t = programs t
  first : ∀ i, FirstWins i s.served (s.table.lookup i)
  nodup : s.table.keys.Nodup
  keys : ∀ i, i ∈ s.table.keys ↔ i ∈ insertions s.served
  counts : ∀ before x after, s.served = before ++ x :: after → x.request = .size →
    x.answer = .counted (insertions before).toFinset.card

variable {programs : ℕ → List Request} {s : Threads}

lemma kept_start (programs : ℕ → List Request) : Kept programs { todo := programs } where
  program _ := rfl
  first _ := .unbound (by simp)
  nodup := List.nodup_nil
  keys _ := Iff.rfl
  counts before x after hsplit := by simp at hsplit

lemma Kept.size_eq (hs : Kept programs s) :
    s.table.size = (insertions s.served).toFinset.card := by
  have hset : s.table.keys.toFinset = (insertions s.served).toFinset := by
    ext i
    rw [List.mem_toFinset, List.mem_toFinset, hs.keys]
  calc s.table.size = s.table.keys.length := (List.length_map _).symm
    _ = s.table.keys.toFinset.card := (List.toFinset_card_of_nodup hs.nodup).symm
    _ = (insertions s.served).toFinset.card := by rw [hset]

lemma Kept.keys_answer (hs : Kept programs s) (t : ℕ) (q : Request) :
    (s.table.answer q).1.keys.Nodup ∧ ∀ i, i ∈ (s.table.answer q).1.keys ↔
      i ∈ insertions (s.served ++ [⟨t, q, (s.table.answer q).2⟩]) := by
  have hsplit : insertions (s.served ++ [⟨t, q, (s.table.answer q).2⟩]) =
      insertions s.served ++ insertions [⟨t, q, (s.table.answer q).2⟩] := List.filterMap_append
  rw [hsplit]
  cases q with
  | insert j name =>
    have hone : insertions [⟨t, .insert j name, (s.table.answer (.insert j name)).2⟩] = [j] := rfl
    rw [hone, answer, keys_insert]
    by_cases hin : s.table.contains j = true
    · rw [if_pos hin]
      refine ⟨hs.nodup, fun i => ?_⟩
      have hj : j ∈ insertions s.served := (hs.keys j).mp ((mem_keys_iff _).mpr hin)
      rw [hs.keys, List.mem_append, List.mem_singleton]
      constructor
      · exact Or.inl
      · rintro (hi | rfl)
        · exact hi
        · exact hj
    · rw [if_neg hin]
      refine ⟨List.nodup_cons.mpr ⟨fun hj => hin ((mem_keys_iff _).mp hj), hs.nodup⟩, fun i => ?_⟩
      rw [List.mem_cons, hs.keys, List.mem_append, List.mem_singleton, or_comm]
  | lookup j | contains j | size =>
    refine ⟨hs.nodup, fun i => ?_⟩
    rw [List.mem_append, ← hs.keys]
    simp [answer, insertions, Served.inserted?]

lemma Kept.step (hs : Kept programs s) (t : ℕ) : Kept programs (s.step t) := by
  unfold Threads.step
  split
  · exact hs
  · rename_i q qs htodo
    obtain ⟨hnodup, hkeys⟩ := hs.keys_answer t q
    refine ⟨fun u => ?_, fun i => (hs.first i).serve t q, hnodup, hkeys, ?_⟩
    · have hu := hs.program u
      by_cases htu : u = t
      · subst htu
        rw [htodo] at hu
        simpa using hu
      · simpa [htu, Ne.symm htu] using hu
    · intro before x after hsplit hsize
      rcases List.eq_nil_or_concat after with rfl | ⟨rest, y, rfl⟩
      · obtain ⟨rfl, hx⟩ := List.append_inj' hsplit rfl
        obtain rfl := List.singleton_inj.mp hx
        obtain rfl : q = .size := hsize
        exact congrArg Answer.counted hs.size_eq
      · rw [List.concat_eq_append, ← List.cons_append, ← List.append_assoc] at hsplit
        obtain ⟨hserved, -⟩ := List.append_inj' hsplit rfl
        exact hs.counts before x rest hserved hsize

lemma Kept.run (hs : Kept programs s) (turns : List ℕ) : Kept programs (s.run turns) := by
  induction turns generalizing s with
  | nil => exact hs
  | cons t turns ih => exact ih (hs.step t)

end Threads

/-! ### The winner -/

/-- A request that is told of an identifier does not name it, and inserts it only if it has a name
already. -/
lemma Served.Tells.not_bound {name : Option String} (htells : x.About i → x.Tells i name) :
    x.bound? ≠ some i ∧ (name = none → x.inserted? ≠ some i) := by
  obtain ⟨t, q, a⟩ := x
  by_cases habout : (⟨t, q, a⟩ : Served).About i
  · cases htells habout with
    | lookup | contains => exact ⟨by simp [bound?], by simp [inserted?]⟩
    | refused t other named =>
      refine ⟨by simp [bound?], fun hname => ?_⟩
      rw [hname] at named
      cases named
  · have hinserted : (⟨t, q, a⟩ : Served).inserted? ≠ some i := by
      intro hi
      refine habout (about_iff.mpr ?_)
      cases q with
      | insert j other => exact hi
      | _ => cases hi
    refine ⟨fun hbound => hinserted ?_, fun _ => hinserted⟩
    unfold bound? at hbound
    split at hbound
    · exact hbound
    · cases hbound

lemma countP_bound_eq_zero {name : Option String}
    (htold : ∀ x ∈ h, x.About i → x.Tells i name) :
    h.countP (fun x => x.bound? = some i) = 0 := by
  rw [List.countP_eq_zero]
  intro x hx
  simpa using (Served.Tells.not_bound (htold x hx)).1

lemma count_insertions_eq_zero (htold : ∀ x ∈ h, x.About i → x.Tells i none) :
    (insertions h).count i = 0 := by
  rw [List.count_eq_zero]
  intro hi
  obtain ⟨x, hx, hinserted⟩ := List.mem_filterMap.mp hi
  exact (Served.Tells.not_bound (htold x hx)).2 rfl hinserted

/-- Exactly one insert gives the name, if there is an insert. -/
lemma FirstWins.countP_bound {name : Option String} (hwins : FirstWins i h name) :
    h.countP (fun x => x.bound? = some i) = min 1 ((insertions h).count i) := by
  cases hwins with
  | unbound told => rw [countP_bound_eq_zero told, count_insertions_eq_zero told]; rfl
  | @bound before after t name early late =>
    have hwinner : (⟨t, .insert i name, .inserted true⟩ : Served).bound? = some i := rfl
    have hinserted : (insertions (before ++ ⟨t, .insert i name, .inserted true⟩ :: after)).count i =
        (insertions before).count i + ((insertions after).count i + 1) := by
      simp [insertions, Served.inserted?]
    rw [List.countP_append, List.countP_cons, countP_bound_eq_zero early,
      countP_bound_eq_zero late, hinserted]
    simp only [hwinner, decide_true, if_true]
    omega

lemma FirstWins.pairwise_found {name : Option String} (hwins : FirstWins i h name) :
    h.Pairwise fun x y => ∀ n, x.request = .lookup i → x.answer = .found (some n) →
      y.request = .lookup i → y.answer = .found (some n) := by
  -- what is told to a lookup is the name that all of its stretch of the history are told
  have htold : ∀ {g : List Served} {m : Option String}, (∀ x ∈ g, x.About i → x.Tells i m) →
      ∀ x ∈ g, x.request = .lookup i → x.answer = .found m := by
    intro g m hg x hx hlookup
    obtain ⟨t, q, a⟩ := x
    obtain rfl : q = .lookup i := hlookup
    cases hg _ hx ⟨i, rfl, rfl⟩
    rfl
  cases hwins with
  | unbound told =>
    refine List.pairwise_of_forall_mem_list fun x hx y hy n hlookup hfound _ => ?_
    rw [htold told x hx hlookup] at hfound
    cases hfound
  | @bound before after t name early late =>
    have hnone : ∀ x ∈ before, ∀ n, x.request = .lookup i → x.answer ≠ .found (some n) := by
      intro x hx n hlookup hfound
      rw [htold early x hx hlookup] at hfound
      cases hfound
    refine List.pairwise_append.mpr ⟨?_, List.pairwise_cons.mpr ⟨?_, ?_⟩, ?_⟩
    · exact List.pairwise_of_forall_mem_list fun x hx y _ n hlookup hfound _ =>
        absurd hfound (hnone x hx n hlookup)
    · intro y _ n hlookup
      cases hlookup
    · refine List.pairwise_of_forall_mem_list fun x hx y hy n hlookup hfound hlookup' => ?_
      rw [htold late x hx hlookup] at hfound
      rw [htold late y hy hlookup', hfound]
    · exact fun x hx y _ n hlookup hfound _ => absurd hfound (hnone x hx n hlookup)

/-- **The first insert of an identifier wins**, in whatever order threads are served: it alone is
told that it has bound the name, and everybody else is told of that name from then on. There are as
many entries as identifiers that have been inserted, and identifiers that differ in any byte have
entries of their own. -/
theorem first_insert_wins (programs : ℕ → List Request) (turns : List ℕ) :
    let s := ({ todo := programs } : Threads).run turns
    (∀ t, (s.served.filter (·.thread = t)).map Served.request ++ s.todo t = programs t) ∧
      (∀ i, FirstWins i s.served (s.table.lookup i) ∧
        s.served.countP (fun x => x.bound? = some i) = min 1 ((insertions s.served).count i) ∧
        s.served.Pairwise fun x y => ∀ name, x.request = .lookup i →
          x.answer = .found (some name) → y.request = .lookup i → y.answer = .found (some name)) ∧
      (∀ before x after, s.served = before ++ x :: after → x.request = .size →
        x.answer = .counted (insertions before).toFinset.card) ∧
      s.table.size = (insertions s.served).toFinset.card ∧
      (s.table.entries.map fun e => e.1.bytes).Nodup := by
  intro s
  have hkept : Threads.Kept programs s := (Threads.kept_start programs).run turns
  refine ⟨hkept.program, fun i => ?_, hkept.counts, hkept.size_eq, ?_⟩
  · have hwins := hkept.first i
    exact ⟨hwins, hwins.countP_bound, hwins.pairwise_found⟩
  · have hbytes : (s.table.entries.map fun e => e.1.bytes) = s.table.keys.map (·.bytes) := by
      rw [keys, List.map_map]
      rfl
    rw [hbytes]
    exact hkept.nodup.map fun i j => Identifier.eq_of_bytes

end ProvenanceRelay.NameTable
