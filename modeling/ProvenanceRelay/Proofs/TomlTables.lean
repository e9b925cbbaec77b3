import Mathlib
import ProvenanceRelay.Proofs.TomlLines
import ProvenanceRelay.Toml.Document

/-!
Tables that are written are read back.

Each section has a line of its own and a line for each setting. The line of the section opens its
table at the end of those that are there, and the lines below it add to that table.
-/

namespace ProvenanceRelay.Toml

/-! ### The lines of sections -/

/-- Sections and settings with keys of their own, none of which needs quotes. -/
structure Section.Plain (s : Section) : Prop where
  name : Bare s.name
  keys : ∀ e ∈ s.settings, Bare e.1
  distinct : (s.settings.map (·.1)).Nodup

def Section.lines (s : Section) : List Line :=
  .table [s.name] :: s.settings.map fun (k, v) => .entry [k] v.toValue

lemma Written.append {t u : Text} {ls ms : List Line} (h : Written t ls) (h' : Written u ms) :
    Written (t ++ u) (ls ++ ms) := by
  induction h with
  | nil => exact h'
  | empty more ih => exact .empty ih
  | @line t u' l ls reads more ih =>
    rw [List.append_assoc, List.cons_append, List.cons_append]
    exact .line reads ih

lemma Section.written_text {s : Section} (h : s.Plain) (hfits : s.fits = true) :
    Written s.text.toList s.lines := by
  have hsettings {es : List (String × Setting)} (hkeys : ∀ e ∈ es, Bare e.1)
      (hes : ∀ e ∈ es, e.2.fits = true) :
      Written (String.join (es.map fun (k, v) => k ++ " = " ++ v.text ++ "\n")).toList
        (es.map fun (k, v) => .entry [k] v.toValue) := by
    induction es with
    | nil => exact .nil
    | cons e es ih =>
      obtain ⟨hkey, hkeys⟩ := List.forall_mem_cons.mp hkeys
      obtain ⟨he, hes⟩ := List.forall_mem_cons.mp hes
      have hline := Written.line (hkey.reads_entry he) (ih hkeys hes)
      simpa [String.toList_append] using hline
  have hbody := hsettings h.keys (by simpa [Section.fits] using hfits)
  have htable := Written.line h.name.reads_table hbody
  simpa [Section.text, Section.lines, String.toList_append] using htable

lemma written_intercalate {sections : List Section} (h : ∀ s ∈ sections, s.Plain)
    (hfits : ∀ s ∈ sections, s.fits = true) :
    Written ("\n".intercalate (sections.map (·.text))).toList (sections.flatMap Section.lines) := by
  rw [String.toList_intercalate]
  induction sections with
  | nil => exact .nil
  | cons s ss ih =>
    obtain ⟨hs, hss⟩ := List.forall_mem_cons.mp h
    obtain ⟨hsfits, hssfits⟩ := List.forall_mem_cons.mp hfits
    have hwritten := Section.written_text hs hsfits
    cases ss with
    | nil => simpa using hwritten
    | cons s' ss =>
      have hmore := hwritten.append (.empty (ih hss hssfits))
      simp only [List.map_cons, List.intercalate_cons_cons, List.flatMap_cons] at hmore ⊢
      simpa using hmore

/-! ### The tables of sections -/

def settingNodes (es : List (String × Setting)) : Entries :=
  es.map fun (k, v) => (k, .value v.toValue)

def sectionNodes (sections : List Section) : Entries :=
  sections.map fun s => (s.name, .table .explicit (settingNodes s.settings))

variable {before : Entries} {name k : String} {sub : Entries} {v : Value}

lemma lookup_append_singleton {n : Node} (h : before.lookup name = none) :
    (before ++ [(name, n)]).lookup name = some n := by
  rw [List.lookup_append, h]
  simp

lemma lookup_append_of_ne {n : Node} (h : before.lookup k = none) (hne : k ≠ name) :
    (before ++ [(name, n)]).lookup k = none := by
  simp [List.lookup_append, h, List.lookup_cons, beq_false_of_ne hne]

lemma replace_append_singleton {m n : Node} (h : before.lookup name = none) :
    replace name n (before ++ [(name, m)]) = before ++ [(name, n)] := by
  rw [replace, List.map_append]
  congr 1
  · apply (List.map_congr_left fun e he => ?_).trans (List.map_id before)
    have hne := List.lookup_eq_none_iff.mp h e he
    simp only [bne_iff_ne, ne_eq] at hne
    rw [if_neg (Ne.symm hne), id]
  · simp

namespace Document

lemma add_table (h : before.lookup name = none) (current : List String) :
    add ⟨before, current⟩ (.table [name]) =
      some ⟨before ++ [(name, .table .explicit [])], [name]⟩ := by
  simp [add, openAt, descend, openTable, h]

lemma add_entry (h : before.lookup name = none) (hk : sub.lookup k = none) :
    add ⟨before ++ [(name, .table .explicit sub)], [name]⟩ (.entry [k] v) =
      some ⟨before ++ [(name, .table .explicit (sub ++ [(k, .value v)]))], [name]⟩ := by
  simp [add, descend, addEntry, lookup_append_singleton h, hk, replace_append_singleton h]

lemma foldlM_entries (h : before.lookup name = none) (sub : Entries) (es : List (String × Setting))
    (hkeys : (es.map (·.1)).Nodup) (hfree : ∀ e ∈ es, sub.lookup e.1 = none) :
    (es.map fun (k, v) => Line.entry [k] v.toValue).foldlM add
        ⟨before ++ [(name, .table .explicit sub)], [name]⟩ =
      some ⟨before ++ [(name, .table .explicit (sub ++ settingNodes es))], [name]⟩ := by
  induction es generalizing sub with
  | nil => simp [settingNodes]
  | cons e es ih =>
    obtain ⟨he, hfree⟩ := List.forall_mem_cons.mp hfree
    obtain ⟨hnotMem, hkeys⟩ := List.nodup_cons.mp hkeys
    have hmore : ∀ f ∈ es, (sub ++ [(e.1, Node.value e.2.toValue)]).lookup f.1 = none := by
      intro f hf
      exact lookup_append_of_ne (hfree f hf) fun heq => hnotMem (List.mem_map.mpr ⟨f, hf, heq⟩)
    rw [List.map_cons, List.foldlM_cons, add_entry h he]
    show List.foldlM _ _ _ = _
    rw [ih _ hkeys hmore]
    simp [settingNodes]

lemma foldlM_sections (before : Entries) (sections : List Section) (h : ∀ s ∈ sections, s.Plain)
    (hnames : (sections.map (·.name)).Nodup)
    (hfree : ∀ s ∈ sections, before.lookup s.name = none) (current : List String) :
    ∃ current', (sections.flatMap Section.lines).foldlM add ⟨before, current⟩ =
      some ⟨before ++ sectionNodes sections, current'⟩ := by
  induction sections generalizing before current with
  | nil => exact ⟨current, by simp [sectionNodes]⟩
  | cons s ss ih =>
    obtain ⟨hs, hss⟩ := List.forall_mem_cons.mp h
    obtain ⟨hname, hfree⟩ := List.forall_mem_cons.mp hfree
    obtain ⟨hnotMem, hnames⟩ := List.nodup_cons.mp hnames
    have hmore : ∀ t ∈ ss,
        (before ++ [(s.name, Node.table .explicit (settingNodes s.settings))]).lookup t.name =
          none := by
      intro t ht
      exact lookup_append_of_ne (hfree t ht) fun heq => hnotMem (List.mem_map.mpr ⟨t, ht, heq⟩)
    obtain ⟨current', hrest⟩ := ih _ hss hnames hmore [s.name]
    refine ⟨current', ?_⟩
    have hentries := foldlM_entries hname [] s.settings hs.distinct (by simp)
    rw [List.flatMap_cons, List.foldlM_append, Section.lines, List.foldlM_cons, add_table hname]
    simp only [Option.bind_eq_bind, Option.bind_some, hentries, List.nil_append, hrest]
    simp [sectionNodes]

end Document

/-! ### Their values -/

lemma entriesToValue_eq (es : Entries) :
    entriesToValue es = es.map fun (k, n) => (k, n.toValue) := by
  induction es with
  | nil => rw [entriesToValue, List.map_nil]
  | cons e es ih => rw [entriesToValue, ih, List.map_cons]

/-- The tables that sections denote. -/
def Section.values (sections : List Section) : List (String × Value) :=
  sections.map fun s => (s.name, .table (s.settings.map fun (k, v) => (k, v.toValue)))

lemma entriesToValue_tables (sections : List Section) :
    entriesToValue (sectionNodes sections) = Section.values sections := by
  rw [entriesToValue_eq, sectionNodes, Section.values, List.map_map]
  congr
  funext s
  simp [Node.toValue, entriesToValue_eq, settingNodes]

lemma head?_ne_mark {sections : List Section} :
    ("\n".intercalate (sections.map (·.text))).toList.head? ≠ some '\uFEFF' := by
  rw [String.toList_intercalate]
  cases sections with
  | nil => simp
  | cons s ss =>
    have hstart : ∃ cs, s.text.toList = '[' :: cs := by
      simp only [Section.text, String.toList_append]
      exact ⟨_, rfl⟩
    obtain ⟨cs, hcs⟩ := hstart
    cases ss <;> simp [hcs]

/-- **Tables that are written are read back.** -/
theorem parse?_print {sections : List Section} {text : String} (h : ∀ s ∈ sections, s.Plain)
    (hnames : (sections.map (·.name)).Nodup) (hprint : print sections = .ok text) :
    parse? text = some (Section.values sections) := by
  obtain ⟨hfits, rfl⟩ : (∀ s ∈ sections, s.fits = true) ∧
      text = "\n".intercalate (sections.map (·.text)) := by
    unfold print at hprint
    split_ifs at hprint with hfits hquotable
    exact ⟨by simpa using hfits, (Except.ok.inj hprint).symm⟩
  obtain ⟨current, hfold⟩ := Document.foldlM_sections [] sections h hnames (by simp) []
  have hlines := (written_intercalate h hfits).linesFrom? (Nat.lt_succ_self _)
  rw [parse?, lines?, if_neg head?_ne_mark]
  simp only [hlines, Option.bind_eq_bind, Option.bind_some]
  rw [show ({} : Document) = ⟨[], []⟩ from rfl, hfold]
  simp [entriesToValue_tables]

end ProvenanceRelay.Toml
