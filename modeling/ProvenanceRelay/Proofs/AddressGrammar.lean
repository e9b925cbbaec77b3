import Mathlib
import ProvenanceRelay.Net.AddressReader

/-!
Which texts are internet addresses.

An address of the older kind is four decimal bytes with dots between them. One of the newer kind is
eight groups of hexadecimal digits with colons between them, or fewer with `::` in one place. Where
two groups are to come last, an address of the older kind may stand for them. These are the texts
that are read, and no others are.
-/

namespace ProvenanceRelay.Net

open IpAddress

/-! ### The grammar -/

/-- A byte in decimal: no leading zeros, and at most 255. -/
structure IsByteText (ds : List Char) : Prop where
  ne_nil : ds ≠ []
  short : ds.length ≤ 3
  digits : ∀ c ∈ ds, c.isDigit
  canonical : ds.head? = some '0' → ds.length = 1
  fits : Nat.ofDigitChars 10 ds 0 < 256

def IsV4Text (cs : List Char) : Prop :=
  ∃ a b c d, IsByteText a ∧ IsByteText b ∧ IsByteText c ∧ IsByteText d ∧
    cs = a ++ '.' :: (b ++ '.' :: (c ++ '.' :: d))

def IsHexDigit (c : Char) : Prop := c.isDigit ∨ 'a' ≤ c ∧ c ≤ 'f' ∨ 'A' ≤ c ∧ c ≤ 'F'

structure IsGroupText (ds : List Char) : Prop where
  ne_nil : ds ≠ []
  short : ds.length ≤ 4
  digits : ∀ c ∈ ds, IsHexDigit c

/-- So many groups with colons between them. The flag tells of an address of the older kind in the
place of the last two. -/
inductive GroupsText : Bool → ℕ → List Char → Prop
  | none : GroupsText false 0 []
  | one {ds : List Char} (h : IsGroupText ds) : GroupsText false 1 ds
  | dotted {ds : List Char} (h : IsV4Text ds) : GroupsText true 2 ds
  | more {dotted : Bool} {n : ℕ} {ds cs : List Char} (h : IsGroupText ds)
      (rest : GroupsText dotted (n + 1) cs) : GroupsText dotted (n + 2) (ds ++ ':' :: cs)

/-- Eight groups, or fewer with `::` in front of, between or behind them. -/
def IsV6Text (cs : List Char) : Prop :=
  (∃ dotted, GroupsText dotted 8 cs) ∨
    ∃ m n dotted front back, m + n ≤ 7 ∧ GroupsText false m front ∧ GroupsText dotted n back ∧
      cs = front ++ ':' :: ':' :: back

def IsAddressText (s : String) : Prop := IsV4Text s.toList ∨ IsV6Text s.toList

/-! ### Digits -/

variable {base width n : ℕ} {cs ds rest : List Char} {c : Char}

lemma isDigit_iff_range : c.isDigit ↔ '0' ≤ c ∧ c ≤ '9' := by simp [Char.isDigit, Char.le_def]

lemma digit?_ten (c : Char) :
    digit? 10 c = if c.isDigit then some (c.toNat - '0'.toNat) else none := by
  unfold digit?
  simp only [← isDigit_iff_range]
  split
  · next h =>
    have hrange : 48 ≤ c.toNat ∧ c.toNat ≤ 57 := Char.isDigit_iff_toNat.mp h
    have hzero : '0'.toNat = 48 := rfl
    have hlt : c.toNat - '0'.toNat < 10 := by omega
    simp only [Option.filter_some, hlt, decide_true, if_true]
  · split
    · simp
    · split <;> simp

lemma isDigit_ten_iff : isDigit 10 c ↔ c.isDigit := by
  rw [isDigit, digit?_ten]
  split <;> simp_all

lemma isDigit_sixteen_iff : isDigit 16 c ↔ IsHexDigit c := by
  unfold isDigit digit? IsHexDigit
  simp only [← isDigit_iff_range]
  split
  · next h =>
    have hrange : 48 ≤ c.toNat ∧ c.toNat ≤ 57 := Char.isDigit_iff_toNat.mp h
    have hlt : c.toNat - 48 < 16 := by omega
    simp [h, hlt]
  · next hdigit =>
    split
    · next h =>
      have hlow : 97 ≤ c.toNat := h.1
      have hhigh : c.toNat ≤ 102 := h.2
      have hlt : c.toNat - 97 + 10 < 16 := by omega
      simp [h, hlt]
    · next hlower =>
      split
      · next h =>
        have hlow : 65 ≤ c.toNat := h.1
        have hhigh : c.toNat ≤ 70 := h.2
        have hlt : c.toNat - 65 + 10 < 16 := by omega
        simp [h, hlt]
      · next hupper => simp [hdigit, hlower, hupper]

lemma ne_of_isDigit (h : isDigit base c) : c ≠ ':' ∧ c ≠ '.' := by
  constructor <;> (rintro rfl; simp [isDigit, digit?] at h)

lemma value_eq (hds : ∀ c ∈ ds, c.isDigit) (n : ℕ) :
    (ds.filterMap (digit? 10)).foldl (· * 10 + ·) n = Nat.ofDigitChars 10 ds n := by
  induction ds generalizing n with
  | nil => simp
  | cons c ds ih =>
    have hc : digit? 10 c = some (c.toNat - '0'.toNat) := by
      rw [digit?_ten, if_pos (hds c List.mem_cons_self)]
    rw [List.filterMap_cons_some hc, List.foldl_cons,
      ih fun d hd => hds d (List.mem_cons_of_mem c hd), Nat.ofDigitChars_cons, Nat.mul_comm]

/-- The text does not begin with a digit. -/
def EndsDigits (base : ℕ) (rest : List Char) : Prop := ∀ c ∈ rest.head?, ¬ isDigit base c

lemma takeWhile_append (hds : ∀ c ∈ ds, isDigit base c) (hrest : EndsDigits base rest) :
    (ds ++ rest).takeWhile (isDigit base) = ds ∧ (ds ++ rest).dropWhile (isDigit base) = rest := by
  rw [List.takeWhile_append_of_pos hds, List.dropWhile_append_of_pos hds]
  cases rest with
  | nil => simp
  | cons c rest => simp [hrest c rfl]

lemma number?_eq_some (h : number? base width cs = some (n, rest)) :
    ∃ ds, cs = ds ++ rest ∧ ds ≠ [] ∧ ds.length ≤ width ∧ (∀ c ∈ ds, isDigit base c) ∧
      (ds.filterMap (digit? base)).foldl (· * base + ·) 0 = n ∧ EndsDigits base rest := by
  unfold number? at h
  dsimp only at h
  split at h
  · cases h
  · next hfits =>
    obtain ⟨rfl, rfl⟩ := Prod.mk.inj (Option.some.inj h)
    rw [not_or, not_lt] at hfits
    refine ⟨cs.takeWhile (isDigit base), List.takeWhile_append_dropWhile.symm, ?_, hfits.2,
      fun c hc => List.mem_takeWhile_imp hc, rfl, ?_⟩
    · simpa using hfits.1
    · intro c hc hdigit
      have hhead := List.head?_dropWhile_not (isDigit base) cs
      rw [Option.mem_def] at hc
      simp [hc, hdigit] at hhead

lemma number?_append (hne : ds ≠ []) (hshort : ds.length ≤ width)
    (hds : ∀ c ∈ ds, isDigit base c) (hrest : EndsDigits base rest) :
    number? base width (ds ++ rest) =
      some ((ds.filterMap (digit? base)).foldl (· * base + ·) 0, rest) := by
  obtain ⟨htake, hdrop⟩ := takeWhile_append hds hrest
  have hempty : ds.isEmpty = false := by simpa using hne
  simp [number?, htake, hdrop, hempty, not_lt.mpr hshort]

/-! ### Addresses of the older kind -/

lemma byte?_eq_some (h : byte? cs = some (n, rest)) :
    ∃ ds, cs = ds ++ rest ∧ IsByteText ds ∧ EndsDigits 10 rest := by
  obtain ⟨⟨m, rest'⟩, hnumber, hbyte⟩ := Option.bind_eq_some_iff.mp h
  dsimp only at hbyte
  split at hbyte
  · next hfits =>
    obtain ⟨rfl, rfl⟩ := Prod.mk.inj (Option.some.inj hbyte)
    obtain ⟨ds, rfl, hne, hshort, hdigits, hvalue, hrest⟩ := number?_eq_some hnumber
    have hdigits : ∀ c ∈ ds, c.isDigit := fun c hc => isDigit_ten_iff.mp (hdigits c hc)
    refine ⟨ds, rfl, ⟨hne, hshort, hdigits, fun hzero => ?_, ?_⟩, hrest⟩
    · have hhead : (ds ++ rest').head? = some '0' := by
        rw [List.head?_append, hzero]
        rfl
      have hlength := hfits.2
      simp only [hhead, List.length_append, true_and, not_not] at hlength
      omega
    · rw [← value_eq hdigits, hvalue]
      exact hfits.1
  · cases hbyte

lemma byte?_append (hds : IsByteText ds) (hrest : EndsDigits 10 rest) :
    ∃ n, byte? (ds ++ rest) = some (n, rest) := by
  have hnumber := number?_append hds.ne_nil hds.short
    (fun c hc => isDigit_ten_iff.mpr (hds.digits c hc)) hrest
  rw [value_eq hds.digits] at hnumber
  have hcanonical : ¬ ((ds ++ rest).head? = some '0' ∧ (ds ++ rest).length ≠ rest.length + 1) := by
    rintro ⟨hzero, hlength⟩
    cases ds with
    | nil => exact hds.ne_nil rfl
    | cons c ds =>
      have hone := hds.canonical (by simpa using hzero)
      rw [List.length_append, hone] at hlength
      omega
  refine ⟨Nat.ofDigitChars 10 ds 0, ?_⟩
  rw [byte?, hnumber]
  dsimp only [Option.bind_eq_bind, Option.bind_some]
  rw [if_pos ⟨hds.fits, hcanonical⟩]

lemma mark?_eq_some {m : Char} : mark? m cs = some rest ↔ cs = m :: rest := by
  cases cs with
  | nil => simp [mark?]
  | cons c cs =>
    rw [mark?]
    split
    · next h => simp [h]
    · next h => simp [h]

@[simp] lemma mark?_cons (m : Char) : mark? m (m :: rest) = some rest := mark?_eq_some.mpr rfl

lemma endsDigits_cons (h : ¬ isDigit base c) : EndsDigits base (c :: rest) := by
  rintro d ⟨⟩
  exact h

lemma endsDigits_dot (rest : List Char) : EndsDigits base ('.' :: rest) :=
  endsDigits_cons fun h => (ne_of_isDigit h).2 rfl

lemma v4?_eq_some {bytes : List ℕ} (h : v4? cs = some (bytes, rest)) :
    (∃ a b c d, bytes = [a, b, c, d]) ∧ ∃ ds, cs = ds ++ rest ∧ IsV4Text ds := by
  unfold v4? at h
  simp only [Option.bind_eq_bind, Option.bind_eq_some_iff, mark?_eq_some, Prod.exists,
    Option.some.injEq, Prod.mk.injEq] at h
  obtain ⟨a, cs₁, ha, cs₂, rfl, b, cs₃, hb, cs₄, rfl, c, cs₅, hc, cs₆, rfl, d, cs₇, hd, rfl, rfl⟩ :=
    h
  obtain ⟨as, rfl, has, -⟩ := byte?_eq_some ha
  obtain ⟨bs, rfl, hbs, -⟩ := byte?_eq_some hb
  obtain ⟨cs, rfl, hcs, -⟩ := byte?_eq_some hc
  obtain ⟨ds, rfl, hds, -⟩ := byte?_eq_some hd
  exact ⟨⟨a, b, c, d, rfl⟩, _, by simp, as, bs, cs, ds, has, hbs, hcs, hds, rfl⟩

lemma v4?_append (hds : IsV4Text ds) (hrest : EndsDigits 10 rest) :
    ∃ a b c d, v4? (ds ++ rest) = some ([a, b, c, d], rest) := by
  obtain ⟨as, bs, cs, ds, has, hbs, hcs, hds, rfl⟩ := hds
  obtain ⟨a, ha⟩ := byte?_append has (endsDigits_dot (bs ++ '.' :: (cs ++ '.' :: (ds ++ rest))))
  obtain ⟨b, hb⟩ := byte?_append hbs (endsDigits_dot (cs ++ '.' :: (ds ++ rest)))
  obtain ⟨c, hc⟩ := byte?_append hcs (endsDigits_dot (ds ++ rest))
  obtain ⟨d, hd⟩ := byte?_append hds hrest
  refine ⟨a, b, c, d, ?_⟩
  simp only [List.append_assoc, List.cons_append]
  simp only [v4?, ha, hb, hc, hd, Option.bind_eq_bind, Option.bind_some, mark?_cons]

/-! ### Groups -/

lemma number?_eq_none (h : EndsDigits base cs) : number? base width cs = none := by
  cases hnumber : number? base width cs with
  | none => rfl
  | some p =>
    obtain ⟨ds, rfl, hne, -, hdigits, -⟩ := number?_eq_some hnumber
    cases ds with
    | nil => exact absurd rfl hne
    | cons c ds => exact absurd (hdigits c List.mem_cons_self) (h c rfl)

lemma v4?_eq_none (h : EndsDigits 10 cs) : v4? cs = none := by
  simp [v4?, byte?, number?_eq_none h]

lemma v4?_eq_none_of_digits (hds : ∀ c ∈ ds, IsHexDigit c) (hrest : ∀ c ∈ rest.head?, c = ':') :
    v4? (ds ++ rest) = none := by
  cases hv4 : v4? (ds ++ rest) with
  | none => rfl
  | some p =>
    obtain ⟨-, t, ht, a, b, c, d, ha, -, -, -, rfl⟩ := v4?_eq_some hv4
    have hsplit : ds ++ rest = a ++ '.' :: (b ++ '.' :: (c ++ '.' :: d) ++ p.2) := by simpa using ht
    obtain ⟨k, rfl, hk⟩ | ⟨k, rfl, hk⟩ := List.append_eq_append_iff.mp hsplit
    · cases k with
      | nil => simpa [hk] using hrest '.'
      | cons e k =>
        have hcolon : e = ':' := hrest e (by simp [hk])
        have hdigit : isDigit 10 e := isDigit_ten_iff.mpr (ha.digits e (by simp))
        exact absurd hcolon (ne_of_isDigit hdigit).1
    · cases k with
      | nil =>
        obtain rfl : _ = rest := hk
        simpa using hrest '.'
      | cons e k =>
        obtain ⟨rfl, -⟩ := List.cons.inj hk
        exact absurd rfl (ne_of_isDigit (isDigit_sixteen_iff.mpr (hds '.' (by simp)))).2

/-- Where groups begin. -/
def start? (first : Bool) (cs : List Char) : Option (List Char) :=
  if first then some cs else mark? ':' cs

/-- The reader of groups goes on with an address of the older kind, or else with a number, or it
stops. -/
lemma groups_cases (room : ℕ) (first : Bool) (cs : List Char) :
    (∃ cs' a b c d rest, start? first cs = some cs' ∧ room ≠ 0 ∧
      v4? cs' = some ([a, b, c, d], rest) ∧
      groups (room + 1) first cs = ([a * 256 + b, c * 256 + d], true, rest)) ∨
    (room ≠ 0 → (start? first cs).bind v4? = none) ∧
      ((start? first cs).bind (number? 16 4) = none ∧
        groups (room + 1) first cs = ([], false, cs) ∨
      ∃ cs' g rest gs dotted rest', start? first cs = some cs' ∧
        number? 16 4 cs' = some (g, rest) ∧ groups room false rest = (gs, dotted, rest') ∧
        groups (room + 1) first cs = (g :: gs, dotted, rest')) := by
  generalize hread : groups (room + 1) first cs = read
  rw [groups] at hread
  dsimp only at hread
  generalize hcs : (if first = true then some cs else mark? ':' cs) = start at hread
  have hstart : start? first cs = start := hcs
  rw [hstart]
  split at hread
  · next a b c d rest hv4 =>
    split at hv4
    · cases hv4
    · next hroom =>
      obtain ⟨cs', rfl, hv4⟩ := Option.bind_eq_some_iff.mp hv4
      exact .inl ⟨cs', a, b, c, d, rest, rfl, hroom, hv4, hread.symm⟩
  · next hnone =>
    refine .inr ⟨fun hroom => ?_, ?_⟩
    · -- what is read as an address of the older kind has four bytes
      rw [if_neg hroom] at hnone
      cases hv4 : start.bind v4? with
      | none => rfl
      | some p =>
        obtain ⟨bytes, rest⟩ := p
        obtain ⟨cs', -, hbytes⟩ := Option.bind_eq_some_iff.mp hv4
        obtain ⟨⟨a, b, c, d, rfl⟩, -⟩ := v4?_eq_some hbytes
        exact absurd hv4 (hnone a b c d rest)
    · split at hread
      · next hnumber => exact .inl ⟨hnumber, hread.symm⟩
      · next g rest hnumber =>
        obtain ⟨cs', rfl, hnumber⟩ := Option.bind_eq_some_iff.mp hnumber
        exact .inr ⟨cs', g, rest, _, _, _, rfl, hnumber, rfl, hread.symm⟩

lemma groupsText_of_groups {room : ℕ} {first dotted : Bool} {gs : List ℕ}
    (h : groups room first cs = (gs, dotted, rest)) :
    gs.length ≤ room ∧
      (gs = [] ∧ dotted = false ∧ rest = cs ∨
        ∃ t, GroupsText dotted gs.length t ∧ gs ≠ [] ∧ start? first cs = some (t ++ rest)) := by
  induction room generalizing first cs gs with
  | zero =>
    obtain ⟨rfl, rfl, rfl⟩ : [] = gs ∧ false = dotted ∧ cs = rest := by simpa [groups] using h
    exact ⟨le_rfl, .inl ⟨rfl, rfl, rfl⟩⟩
  | succ room ih =>
    obtain ⟨cs', a, b, c, d, rest', hstart, hroom, hv4, heq⟩ | ⟨-, ⟨-, heq⟩ |
      ⟨cs', g, rest₁, gs', dotted', rest₂, hstart, hnumber, hgroups, heq⟩⟩ :=
      groups_cases room first cs
    · -- an address of the older kind ends the groups
      rw [h] at heq
      obtain ⟨rfl, rfl, rfl⟩ : gs = [_, _] ∧ dotted = true ∧ rest = rest' := by simpa using heq
      obtain ⟨-, ds, rfl, hds⟩ := v4?_eq_some hv4
      exact ⟨by simp; omega, .inr ⟨ds, .dotted hds, by simp, hstart⟩⟩
    · -- there is no group
      rw [h] at heq
      obtain ⟨rfl, rfl, rfl⟩ : gs = [] ∧ dotted = false ∧ rest = cs := by simpa using heq
      exact ⟨Nat.zero_le _, .inl ⟨rfl, rfl, rfl⟩⟩
    · -- there is a group
      rw [h] at heq
      obtain ⟨rfl, rfl, rfl⟩ : gs = g :: gs' ∧ dotted = dotted' ∧ rest = rest₂ := by simpa using heq
      obtain ⟨ds, rfl, hne, hshort, hdigits, -⟩ := number?_eq_some hnumber
      have hds : IsGroupText ds :=
        ⟨hne, hshort, fun c hc => isDigit_sixteen_iff.mp (hdigits c hc)⟩
      obtain ⟨hle, ⟨rfl, rfl, rfl⟩ | ⟨t, ht, hgs, hrest⟩⟩ := ih hgroups
      · -- it is the last one
        exact ⟨by simp, .inr ⟨ds, .one hds, by simp, hstart⟩⟩
      · -- others follow behind a colon
        refine ⟨by simpa using hle, .inr ⟨ds ++ ':' :: t, ?_, by simp, ?_⟩⟩
        · obtain ⟨n, hn⟩ := Nat.exists_eq_succ_of_ne_zero (mt List.length_eq_zero_iff.mp hgs)
          rw [hn] at ht
          rw [List.length_cons, hn]
          exact .more hds ht
        · have hcolon : rest₁ = ':' :: (t ++ rest) := mark?_eq_some.mp hrest
          rw [hstart, hcolon]
          simp

/-- Groups are read up to the end of the text or to `::`. -/
def EndsGroups (rest : List Char) : Prop := rest = [] ∨ ∃ back, rest = ':' :: ':' :: back

lemma EndsGroups.head? (h : EndsGroups rest) : ∀ c ∈ rest.head?, c = ':' := by
  rintro c hc
  obtain rfl | ⟨back, rfl⟩ := h
  · cases hc
  · exact (Option.some.inj hc).symm

lemma endsDigits_of_head? (h : ∀ c ∈ rest.head?, c = ':') : EndsDigits base rest :=
  fun c hc hdigit => (ne_of_isDigit hdigit).1 (h c hc)

lemma groups_of_endsGroups (hrest : EndsGroups rest) (room : ℕ) (first : Bool) :
    groups room first rest = ([], false, rest) := by
  have hnone : ∀ cs, start? first rest = some cs → EndsDigits 16 cs ∧ EndsDigits 10 cs := by
    intro cs hstart
    suffices h : ∀ c ∈ cs.head?, c = ':' from ⟨endsDigits_of_head? h, endsDigits_of_head? h⟩
    cases first with
    | true => exact Option.some.inj hstart ▸ hrest.head?
    | false =>
      obtain rfl | ⟨back, rfl⟩ := hrest
      · cases hstart
      · obtain rfl : ':' :: back = cs := by simpa [start?] using hstart
        rintro c ⟨⟩
        rfl
  cases room with
  | zero => rfl
  | succ room =>
    obtain ⟨cs', a, b, c, d, rest', hstart, -, hv4, -⟩ | ⟨-, ⟨-, heq⟩ |
      ⟨cs', g, rest', gs, dotted, rest'', hstart, hnumber, -, -⟩⟩ := groups_cases room first rest
    · rw [v4?_eq_none (hnone cs' hstart).2] at hv4
      cases hv4
    · exact heq
    · rw [number?_eq_none (hnone cs' hstart).1] at hnumber
      cases hnumber

/-- A group and what is read behind it. -/
lemma groups_of_group {first dotted : Bool} {next : List Char} {room : ℕ} {gs : List ℕ}
    (hds : IsGroupText ds) (hnext : ∀ c ∈ next.head?, c = ':')
    (hstart : start? first cs = some (ds ++ next))
    (hgroups : groups room false next = (gs, dotted, rest)) :
    ∃ g, groups (room + 1) first cs = (g :: gs, dotted, rest) := by
  have hnumber := number?_append hds.ne_nil hds.short
    (fun c hc => isDigit_sixteen_iff.mpr (hds.digits c hc)) (endsDigits_of_head? hnext)
  obtain ⟨cs', a, b, c, d, rest', hcs, -, hv4, -⟩ | ⟨-, ⟨hnone, -⟩ |
    ⟨cs', g, next', gs', dotted', rest', hcs, hg, hgs, heq⟩⟩ := groups_cases room first cs
  · obtain rfl := Option.some.inj (hstart.symm.trans hcs)
    rw [v4?_eq_none_of_digits hds.digits hnext] at hv4
    cases hv4
  · rw [hstart, Option.bind_some, hnumber] at hnone
    cases hnone
  · obtain rfl := Option.some.inj (hstart.symm.trans hcs)
    obtain ⟨-, rfl⟩ := Prod.mk.inj (Option.some.inj (hnumber.symm.trans hg))
    obtain ⟨rfl, rfl, rfl⟩ : gs = gs' ∧ dotted = dotted' ∧ rest = rest' := by
      simpa using hgroups.symm.trans hgs
    exact ⟨g, heq⟩

lemma exists_groups {dotted first : Bool} {t : List Char} (h : GroupsText dotted n t) (hn : n ≠ 0)
    {room : ℕ} (hroom : n ≤ room) (hrest : EndsGroups rest)
    (hstart : start? first cs = some (t ++ rest)) :
    ∃ gs, gs.length = n ∧ groups room first cs = (gs, dotted, rest) := by
  obtain ⟨room, rfl⟩ := Nat.exists_eq_succ_of_ne_zero (Nat.ne_of_gt (by omega : 0 < room))
  induction h generalizing room first cs with
  | none => exact absurd rfl hn
  | one hds =>
    obtain ⟨g, hg⟩ :=
      groups_of_group hds hrest.head? hstart (groups_of_endsGroups hrest room false)
    exact ⟨[g], rfl, hg⟩
  | dotted hds =>
    obtain ⟨a, b, c, d, hv4⟩ := v4?_append hds (endsDigits_of_head? hrest.head?)
    obtain ⟨cs', a', b', c', d', rest', hcs, -, hbytes, heq⟩ | ⟨hnone, -⟩ :=
      groups_cases room first cs
    · obtain rfl := Option.some.inj (hstart.symm.trans hcs)
      obtain ⟨-, rfl⟩ := Prod.mk.inj (Option.some.inj (hv4.symm.trans hbytes))
      exact ⟨_, rfl, heq⟩
    · rw [hstart, Option.bind_some, hv4] at hnone
      cases hnone (by omega)
  | @more dotted n ds t hds ht ih =>
    obtain ⟨room, rfl⟩ := Nat.exists_eq_succ_of_ne_zero (Nat.ne_of_gt (by omega : 0 < room))
    have hnext : start? false (':' :: (t ++ rest)) = some (t ++ rest) := mark?_cons ':'
    obtain ⟨gs, hlength, hgs⟩ := ih (by omega) hnext room (by omega)
    have hstart : start? first cs = some (ds ++ ':' :: (t ++ rest)) := by simpa using hstart
    obtain ⟨g, hg⟩ := groups_of_group hds (by simp) hstart hgs
    exact ⟨g :: gs, by simp [hlength], hg⟩

lemma exists_groups_true {dotted : Bool} {t : List Char} (h : GroupsText dotted n t) {room : ℕ}
    (hroom : n ≤ room) (hrest : EndsGroups rest) :
    ∃ gs, gs.length = n ∧ groups room true (t ++ rest) = (gs, dotted, rest) := by
  cases h with
  | none => exact ⟨[], rfl, groups_of_endsGroups hrest room true⟩
  | one hds => exact exists_groups (.one hds) (by omega) hroom hrest rfl
  | dotted hds => exact exists_groups (.dotted hds) (by omega) hroom hrest rfl
  | more hds hcs => exact exists_groups (.more hds hcs) (by omega) hroom hrest rfl

lemma groupsText_of_groups_true {room : ℕ} {dotted : Bool} {gs : List ℕ}
    (h : groups room true cs = (gs, dotted, rest)) :
    gs.length ≤ room ∧ ∃ t, GroupsText dotted gs.length t ∧ cs = t ++ rest := by
  obtain ⟨hle, ⟨rfl, rfl, rfl⟩ | ⟨t, ht, -, hcs⟩⟩ := groupsText_of_groups h
  · exact ⟨hle, [], .none, rfl⟩
  · exact ⟨hle, t, ht, Option.some.inj hcs⟩

/-! ### Whole addresses -/

lemma v4?_iff : (∃ bytes, v4? cs = some (bytes, [])) ↔ IsV4Text cs := by
  constructor
  · rintro ⟨bytes, h⟩
    obtain ⟨-, ds, rfl, hds⟩ := v4?_eq_some h
    rwa [List.append_nil]
  · intro h
    have hnone : EndsDigits 10 [] := by simp [EndsDigits]
    obtain ⟨a, b, c, d, hv4⟩ := v4?_append h hnone
    exact ⟨_, by rwa [List.append_nil] at hv4⟩

lemma v6?_iff : (∃ ip, v6? cs = some (ip, [])) ↔ IsV6Text cs := by
  constructor
  · rintro ⟨ip, h⟩
    obtain ⟨front, dotted, rest, hfront⟩ :
      ∃ front dotted rest, groups 8 true cs = (front, dotted, rest) := ⟨_, _, _, rfl⟩
    obtain ⟨hle, t, ht, rfl⟩ := groupsText_of_groups_true hfront
    rw [v6?, hfront] at h
    dsimp only at h
    split_ifs at h with height hdotted
    · -- eight groups, without a gap
      obtain ⟨-, rfl⟩ := Prod.mk.inj (Option.some.inj h)
      rw [height] at ht
      exact .inl ⟨dotted, by rwa [List.append_nil]⟩
    · -- a gap between the groups
      simp only [Option.bind_eq_bind, Option.bind_eq_some_iff] at h
      obtain ⟨mid, hmid, rest', hrest', h⟩ := h
      obtain rfl := mark?_eq_some.mp hmid
      obtain rfl := mark?_eq_some.mp hrest'
      obtain ⟨back, dotted', last, hback⟩ :
        ∃ back dotted' last, groups (7 - front.length) true rest' = (back, dotted', last) :=
        ⟨_, _, _, rfl⟩
      obtain ⟨hle', t', ht', rfl⟩ := groupsText_of_groups_true hback
      rw [hback] at h
      obtain ⟨-, rfl⟩ := Prod.mk.inj (Option.some.inj h)
      rw [Bool.not_eq_true] at hdotted
      subst hdotted
      exact .inr ⟨_, _, dotted', t, t', by omega, ht, ht', by rw [List.append_nil]⟩
  · rintro (⟨dotted, h⟩ | ⟨m, n, dotted, front, back, hle, hfront, hback, rfl⟩)
    · -- eight groups, without a gap
      obtain ⟨gs, hlength, hgs⟩ := exists_groups_true h le_rfl (.inl rfl)
      rw [List.append_nil] at hgs
      exact ⟨.ofGroups gs, by rw [v6?, hgs]; simp [hlength]⟩
    · -- a gap, with few enough groups on both sides of it
      have hm : m ≤ 8 := by omega
      obtain ⟨gs, rfl, hgs⟩ := exists_groups_true hfront hm (.inr ⟨back, rfl⟩)
      have hn : n ≤ 7 - gs.length := by omega
      obtain ⟨gs', rfl, hgs'⟩ := exists_groups_true hback hn (.inl rfl)
      rw [List.append_nil] at hgs'
      have hshort : gs.length ≠ 8 := by omega
      rw [v6?, hgs]
      simp [hshort, hgs']

/-- **The texts that are read as addresses are the addresses.** -/
theorem isSome_parse?_iff {s : String} : (parse? s).isSome ↔ IsAddressText s := by
  rw [IsAddressText, ← v4?_iff, ← v6?_iff]
  unfold parse?
  split
  · next hv4 => simp [hv4]
  · next hv4 =>
    have hnone : ¬ ∃ bytes, v4? s.toList = some (bytes, []) := by
      rintro ⟨bytes, h⟩
      obtain ⟨⟨a, b, c, d, rfl⟩, -⟩ := v4?_eq_some h
      exact hv4 a b c d h
    rw [or_iff_right hnone]
    split
    · next ip hv6 => simp [hv6]
    · next hv6 => simpa using hv6

end ProvenanceRelay.Net
