import Mathlib
import ProvenanceRelay.Proofs.Acts
import ProvenanceRelay.Proofs.LineText
import ProvenanceRelay.Proofs.LineWriting

/-!
What the lines tell, and of what.

Which slices get a line and what it says is laid down by `Lines`, from the slices alone: a name is
found by looking for the first path that gave it, not in a table. What is written is read back as
what it has to say, line by line. The writer keeps to it because
the table always knows the first names (`Knows`) and because nothing is held between lines
(`Written`); each of the five endings of a slice either adds one line or leaves both alone.
-/

namespace ProvenanceRelay.Output.JsonLines

open Dispatch

/-! ### What the lines have to be -/

/-- A slice that gets a line: it has the size of its shape, its kind is not suppressed, and it can
be decoded. -/
inductive Accepted (config : OutputConfig) : Delivery → AnyRecord → Payload → Prop where
  | mk {shape : Shape} {bs : Bytes} {r : AnyRecord} {p : Payload}
    (size : bs.length = shape.size)
    (parsed : AnyRecord.parse shape bs = .ok r)
    (kept : ∀ k, r.kind? = some k → k.name ∉ config.suppress)
    (decoded : r.decode = .ok p) :
      Accepted config (.slice shape bs) r p

/-- A path that gets a line gives its name to its identifier. -/
def Binds (config : OutputConfig) (x : Delivery) (i : Identifier) (name : String) : Prop :=
  ∃ r e, Accepted config x r (.long (.path e)) ∧ e.header.identifier = i ∧ e.name = name

/-- The first name that an identifier was given. -/
def FirstName (config : OutputConfig) (xs : List Delivery) (i : Identifier) (name : String) :
    Prop :=
  ∃ before x after, xs = before ++ x :: after ∧ Binds config x i name ∧
    ∀ y ∈ before, ∀ other, ¬ Binds config y i other

/-- What an end of a relation is called on its line. -/
def EndNamed (config : OutputConfig) (earlier : List Delivery) (side : Relation → Identifier)
    (p : Payload) (name : String) : Prop :=
  config.resolveNames = true ∧
    ∃ rel, p = .short (.relation rel) ∧ FirstName config earlier (side rel) name

/-- The line of a record that comes after others: it tells the record, as the kind that its tag
announces, and what the ends of a relation are called. -/
structure IsLine (config : OutputConfig) (earlier : List Delivery) (r : AnyRecord) (p : Payload)
    (l : Line) : Prop where
  payload : l.payload = p
  kind : r.kind? = some l.payload.kind
  sender : ∀ name, l.sender = some name ↔ EndNamed config earlier Relation.sender p name
  receiver : ∀ name, l.receiver = some name ↔ EndNamed config earlier Relation.receiver p name

/-- The lines of deliveries: one for each slice that gets a line, in their order. -/
inductive Lines (config : OutputConfig) : List Delivery → List Line → Prop where
  | nil : Lines config [] []
  | skip {xs : List Delivery} {ls : List Line} {x : Delivery}
    (before : Lines config xs ls)
    (refused : ∀ r p, ¬ Accepted config x r p) :
      Lines config (xs ++ [x]) ls
  | line {xs : List Delivery} {ls : List Line} {x : Delivery} {r : AnyRecord} {p : Payload}
    {l : Line}
    (before : Lines config xs ls)
    (accepted : Accepted config x r p)
    (isLine : IsLine config xs r p l) :
      Lines config (xs ++ [x]) (ls ++ [l])

/-! ### First names -/

variable {config : OutputConfig} {xs : List Delivery} {x : Delivery} {i : Identifier}
  {name : String}

lemma Accepted.unique {r r' : AnyRecord} {p p' : Payload} (h : Accepted config x r p)
    (h' : Accepted config x r' p') : r = r' ∧ p = p' := by
  obtain ⟨-, hparse, -, hdecode⟩ := h
  obtain ⟨-, hparse', -, hdecode'⟩ := h'
  rw [hparse] at hparse'
  obtain rfl := Except.ok.inj hparse'
  rw [hdecode] at hdecode'
  exact ⟨rfl, Except.ok.inj hdecode'⟩

lemma Accepted.binds_iff {r : AnyRecord} {p : Payload} (h : Accepted config x r p) :
    Binds config x i name ↔ binding? p = some (i, name) := by
  constructor
  · rintro ⟨r', e, h', rfl, rfl⟩
    obtain ⟨-, rfl⟩ := h.unique h'
    rfl
  · intro hbinding
    unfold binding? at hbinding
    split at hbinding
    · rename_i e
      obtain ⟨rfl, rfl⟩ := Prod.mk.inj (Option.some.inj hbinding)
      exact ⟨r, e, h, rfl, rfl⟩
    · cases hbinding

lemma FirstName.append (h : FirstName config xs i name) (ys : List Delivery) :
    FirstName config (xs ++ ys) i name := by
  obtain ⟨before, y, after, rfl, hbinds, hfirst⟩ := h
  exact ⟨before, y, after ++ ys, by simp, hbinds, hfirst⟩

lemma exists_firstName {y : Delivery} (hy : y ∈ xs) (hbinds : Binds config y i name) :
    ∃ first, FirstName config xs i first := by
  induction xs with
  | nil => cases hy
  | cons z zs ih =>
    by_cases hz : ∃ first, Binds config z i first
    · obtain ⟨first, hfirst⟩ := hz
      exact ⟨first, [], z, zs, rfl, hfirst, by simp⟩
    · have hne : y ≠ z := by
        rintro rfl
        exact hz ⟨name, hbinds⟩
      obtain ⟨first, before, u, after, rfl, hu, hbefore⟩ := ih (List.mem_of_ne_of_mem hne hy)
      refine ⟨first, z :: before, u, after, rfl, hu, ?_⟩
      intro v hv other hother
      rcases List.mem_cons.mp hv with rfl | hv
      · exact hz ⟨other, hother⟩
      · exact hbefore v hv other hother

lemma firstName_append_singleton :
    FirstName config (xs ++ [x]) i name ↔
      FirstName config xs i name ∨
        (∀ other, ¬ FirstName config xs i other) ∧ Binds config x i name := by
  constructor
  · rintro ⟨before, y, after, heq, hbinds, hfirst⟩
    rcases List.eq_nil_or_concat after with rfl | ⟨rest, z, rfl⟩
    · obtain ⟨rfl, hxy⟩ := List.append_inj' heq rfl
      obtain rfl : x = y := by simpa using hxy
      refine .inr ⟨?_, hbinds⟩
      rintro other ⟨earlier, z, later, rfl, hz, -⟩
      exact hfirst z (by simp) other hz
    · left
      rw [List.concat_eq_append, ← List.cons_append, ← List.append_assoc] at heq
      obtain ⟨rfl, -⟩ := List.append_inj' heq rfl
      exact ⟨before, y, rest, rfl, hbinds, hfirst⟩
  · rintro (h | ⟨hnone, hbinds⟩)
    · exact h.append [x]
    · refine ⟨xs, x, [], rfl, hbinds, ?_⟩
      intro y hy other hother
      obtain ⟨first, hfirst⟩ := exists_firstName hy hother
      exact hnone first hfirst

/-- The table has the first names. -/
def Knows (config : OutputConfig) (xs : List Delivery) (names : NameTable) : Prop :=
  ∀ i name, names.lookup i = some name ↔ FirstName config xs i name

lemma knows_empty : Knows config [] .empty := by
  intro i name
  simp [FirstName]

lemma Knows.skip {names : NameTable} (h : Knows config xs names)
    (hx : ∀ i name, ¬ Binds config x i name) : Knows config (xs ++ [x]) names := by
  intro i name
  rw [firstName_append_singleton, h i name]
  simp [hx i name]

lemma Knows.insert {names : NameTable} (h : Knows config xs names)
    (hx : ∀ j other, Binds config x j other ↔ (i, name) = (j, other)) :
    Knows config (xs ++ [x]) (names.insert i name) := by
  intro j other
  have hnone : (∀ n, ¬ FirstName config xs j n) ↔ names.lookup j = none := by
    simp only [← h j, Option.eq_none_iff_forall_ne_some, ne_eq]
  rw [firstName_append_singleton, hnone, hx, ← h j other, NameTable.lookup_insert]
  by_cases hj : j = i
  · subst hj
    cases hlookup : names.lookup j <;> simp
  · simp [hj, Ne.symm hj]

/-! ### The line of a record -/

def called (resolve : Bool) (names : NameTable) (side : Relation → Identifier) :
    Payload → Option String
  | .short (.relation rel) => if resolve then names.lookup (side rel) else none
  | _ => none

/-- The line that a record gets while names are known. -/
def lineOf (resolve : Bool) (names : NameTable) (p : Payload) : Line :=
  ⟨p, called resolve names Relation.sender p, called resolve names Relation.receiver p⟩

lemma lineJson_eq (resolve : Bool) (names : NameTable) (p : Payload) :
    lineJson resolve names p = (lineOf resolve names p).json := by
  rcases p with q | q <;> cases q <;> cases resolve <;> rfl

lemma called_eq_some_iff {names : NameTable} (side : Relation → Identifier) {p : Payload}
    (hnames : ∀ rel, p = .short (.relation rel) → Knows config xs names) :
    called config.resolveNames names side p = some name ↔ EndNamed config xs side p name := by
  unfold EndNamed called
  split
  · rename_i rel
    cases config.resolveNames with
    | false => simp
    | true => simpa using hnames rel rfl (side rel) name
  · rename_i hother
    constructor
    · intro h
      cases h
    · rintro ⟨-, rel, rfl, -⟩
      exact absurd rfl (hother rel)

lemma isLine_lineOf {names : NameTable} {r : AnyRecord} {p : Payload}
    (hkind : r.kind? = some p.kind)
    (hnames : ∀ rel, p = .short (.relation rel) → Knows config xs names) :
    IsLine config xs r p (lineOf config.resolveNames names p) where
  payload := rfl
  kind := hkind
  sender _ := called_eq_some_iff Relation.sender hnames
  receiver _ := called_eq_some_iff Relation.receiver hnames

/-! ### What is written -/

/-- An act that neither writes nor binds. -/
def isQuiet : Act → Bool
  | .bind _ _ | .call (.handle _) => false
  | _ => true

lemma perform_of_isQuiet {d : Dispatcher JsonLines} (hhandler : d.handler = handler config)
    {a : Act} (ha : isQuiet a) :
    (d.perform a).state.out = d.state.out ∧ (d.perform a).names = d.names := by
  constructor
  · rw [out_perform hhandler]
    split
    · cases ha
    · rfl
  · cases a with
    | bind i name => cases ha
    | _ => rfl

lemma run_of_isQuiet {d : Dispatcher JsonLines} (hhandler : d.handler = handler config)
    {as : List Act} (has : ∀ a ∈ as, isQuiet a) :
    (d.run as).state.out = d.state.out ∧ (d.run as).names = d.names := by
  induction as generalizing d with
  | nil => exact ⟨rfl, rfl⟩
  | cons a as ih =>
    obtain ⟨ha, has⟩ := List.forall_mem_cons.mp has
    have hstep := perform_of_isQuiet hhandler ha
    have hrest := ih (d := d.perform a) (by rw [Dispatcher.handler_perform, hhandler]) has
    exact ⟨hrest.1.trans hstep.1, hrest.2.trans hstep.2⟩

/-- A dispatcher that knows what the next line needs of what was delivered. -/
structure Told (config : OutputConfig) (xs : List Delivery) (ls : List Line)
    (d : Dispatcher JsonLines) : Prop where
  handler : d.handler = handler config
  names : Knows config xs d.names
  lines : Lines config xs ls

variable {ls : List Line} {d : Dispatcher JsonLines} {as : List Act}

lemma Told.quiet (h : Told config xs ls d) (has : ∀ a ∈ as, isQuiet a)
    (hrefused : ∀ r p, ¬ Accepted config x r p) :
    Told config (xs ++ [x]) ls (d.run as) ∧ (d.run as).state.out = d.state.out := by
  obtain ⟨hout, hnames⟩ := run_of_isQuiet h.handler has
  refine ⟨⟨?_, ?_, h.lines.skip hrefused⟩, hout⟩
  · rw [Dispatcher.handler_run, h.handler]
  · rw [hnames]
    exact h.names.skip fun _ _ ⟨r, _, haccepted, _⟩ => hrefused r _ haccepted

/-- The names once a decoded record is bound. -/
def bound (names : NameTable) (p : Payload) : NameTable :=
  match binding? p with
  | some (i, name) => names.insert i name
  | none => names

lemma Knows.bound {names : NameTable} {r : AnyRecord} {p : Payload} (h : Knows config xs names)
    (haccepted : Accepted config x r p) : Knows config (xs ++ [x]) (bound names p) := by
  unfold JsonLines.bound
  split
  · rename_i i name hbinding
    refine h.insert fun j other => ?_
    rw [haccepted.binds_iff, hbinding, Option.some.injEq]
  · rename_i hbinding
    refine h.skip fun j other hbinds => ?_
    rw [haccepted.binds_iff, hbinding] at hbinds
    cases hbinds

lemma run_route (d : Dispatcher JsonLines) (p : Payload) :
    d.run (route p) = { d with names := bound d.names p }.perform (.call (.handle p)) := by
  cases hbinding : binding? p <;> simp only [route, bound, hbinding] <;> rfl

lemma Told.line (h : Told config xs ls d) (has : ∀ a ∈ as, isQuiet a) {r : AnyRecord}
    {p : Payload} (haccepted : Accepted config x r p) :
    let l := lineOf config.resolveNames (JsonLines.bound d.names p) p
    Told config (xs ++ [x]) (ls ++ [l]) (d.run (as ++ route p)) ∧
      (d.run (as ++ route p)).state.out = (d.state.out.line l.json.pieces).1 := by
  intro l
  obtain ⟨hout, hnames⟩ := run_of_isQuiet h.handler has
  have hhandler : (d.run as).handler = JsonLines.handler config := by
    rw [Dispatcher.handler_run, h.handler]
  have hkind : r.kind? = some p.kind := by
    obtain ⟨-, -, -, hdecode⟩ := haccepted
    exact AnyRecord.kind?_of_decode hdecode
  have hknows := h.names.bound haccepted
  rw [Dispatcher.run_append, run_route, hnames]
  refine ⟨⟨?_, ?_, ?_⟩, ?_⟩
  · rw [Dispatcher.handler_perform, hhandler]
  · rwa [Dispatcher.perform]
  · refine h.lines.line haccepted (isLine_lineOf hkind ?_)
    rintro rel rfl
    exact h.names
  · rw [out_perform (d := { d.run as with names := JsonLines.bound d.names p }) hhandler]
    dsimp only
    rw [lineJson_eq, hout]

lemma drops_eq_false_iff (config : OutputConfig) (r : AnyRecord) :
    (policy config).drops r = false ↔ ∀ k, r.kind? = some k → k.name ∉ config.suppress := by
  cases hkind : r.kind? with
  | none => simp [policy, hkind]
  | some k => simp [policy, hkind, suppresses]

lemma Told.deliver (hquery : config.queryMode = false) (h : Told config xs ls d) (x : Delivery) :
    ((∀ r p, ¬ Accepted config x r p) ∧ Told config (xs ++ [x]) ls (d.deliver x) ∧
      (d.deliver x).state.out = d.state.out) ∨
    ∃ r p, Accepted config x r p ∧
      let l := lineOf config.resolveNames (JsonLines.bound d.names p) p
      Told config (xs ++ [x]) (ls ++ [l]) (d.deliver x) ∧
        (d.deliver x).state.out = (d.state.out.line l.json.pieces).1 := by
  rw [Dispatcher.deliver_eq_run, h.handler]
  have hskip {as : List Act} (has : ∀ a ∈ as, isQuiet a)
      (hrefused : ∀ r p, ¬ Accepted config x r p) := And.intro hrefused (h.quiet has hrefused)
  cases x with
  | fault message =>
    refine .inl (hskip (by simp [Delivery.acts, isQuiet]) ?_)
    rintro r p ⟨⟩
  | slice shape bs =>
    have hending : Ending (policy config) shape bs
        ((Delivery.slice shape bs).acts (JsonLines.handler config).policy) := ending _ shape bs
    generalize (Delivery.slice shape bs).acts (JsonLines.handler config).policy = as at hending
    -- every end but the last contradicts a condition of `Accepted`
    cases hending with
    | missized size =>
      refine .inl (hskip (by simp [refuse, isQuiet]) ?_)
      rintro r p ⟨hsize, -, -, -⟩
      exact size hsize
    | queried parsed query =>
      rw [policy, hquery] at query
      cases query
    | filtered parsed query drops =>
      refine .inl (hskip (by simp [isQuiet]) ?_)
      rintro r p ⟨-, hparse, hkept, -⟩
      rw [parsed] at hparse
      obtain rfl := Except.ok.inj hparse
      rw [(drops_eq_false_iff config _).mpr hkept] at drops
      cases drops
    | undecodable parsed query drops decoded =>
      refine .inl (hskip (by simp [refuse, isQuiet]) ?_)
      rintro r p ⟨-, hparse, -, hdecode⟩
      rw [parsed] at hparse
      obtain rfl := Except.ok.inj hparse
      rw [decoded] at hdecode
      cases hdecode
    | routed parsed query drops decoded =>
      have haccepted : Accepted config (.slice shape bs) _ _ := .mk (AnyRecord.size_of_parse parsed)
        parsed ((drops_eq_false_iff config _).mp drops) decoded
      exact .inr ⟨_, _, haccepted, h.line (by simp [isQuiet]) haccepted⟩

def writeLines (w : LineWriter) (ls : List Json) : LineWriter :=
  ls.foldl (fun w l => (w.line l.pieces).1) w

lemma Told.deliverAll (hquery : config.queryMode = false) (h : Told config xs ls d)
    (ys : List Delivery) :
    ∃ more, Told config (xs ++ ys) (ls ++ more) (d.deliverAll ys) ∧
      (d.deliverAll ys).state.out = writeLines d.state.out (more.map Line.json) := by
  induction ys generalizing xs ls d with
  | nil => exact ⟨[], by simpa [Dispatcher.deliverAll] using h, rfl⟩
  | cons y ys ih =>
    have hcons : d.deliverAll (y :: ys) = (d.deliver y).deliverAll ys := rfl
    rw [List.append_cons, hcons]
    rcases h.deliver hquery y with ⟨-, h', hout⟩ | ⟨-, p, -, h', hout⟩
    · obtain ⟨more, hmore, hwritten⟩ := ih h'
      exact ⟨more, hmore, by rw [hwritten, hout]⟩
    · obtain ⟨more, hmore, hwritten⟩ := ih h'
      refine ⟨_ :: more, by rwa [List.append_cons ls], ?_⟩
      rw [hwritten, hout]
      rfl

/-! ### What a working sink has -/

lemma writeLines_of_works {w : LineWriter} (h : w.Works) (hheld : w.held = "") (ls : List Json) :
    (writeLines w ls).Works ∧ (writeLines w ls).held = "" ∧
      (writeLines w ls).sink.written = w.sink.written ++ linesText ls := by
  induction ls generalizing w with
  | nil => exact ⟨h, hheld, by simp [writeLines, linesText]⟩
  | cons l ls ih =>
    obtain ⟨w', hline, hgrown, hheld'⟩ := LineWriter.line_of_works h l.pieces
    obtain ⟨hworks, hempty, hwritten⟩ := ih hgrown.works hheld'
    have hcons : writeLines w (l :: ls) = writeLines w' ls := by
      rw [writeLines, List.foldl_cons, hline]
      rfl
    have htext := hgrown.text
    simp only [LineWriter.text, hheld, hheld', String.append_empty] at htext
    rw [hcons]
    refine ⟨hworks, hempty, ?_⟩
    rw [hwritten, htext]
    simp [linesText, Json.compact, String.append_assoc]

/-- A dispatcher whose sink has the lines of what was delivered. -/
structure Written (config : OutputConfig) (sink : Sink) (xs : List Delivery) (ls : List Line)
    (d : Dispatcher JsonLines) : Prop extends Told config xs ls d where
  works : d.state.out.Works
  written : d.state.out.sink.written = sink.written ++ linesText (ls.map Line.json)
  held : d.state.out.held = ""

lemma Written.deliverAll {sink : Sink} (hquery : config.queryMode = false)
    (h : Written config sink xs ls d) (ys : List Delivery) :
    ∃ more, Written config sink (xs ++ ys) (ls ++ more) (d.deliverAll ys) := by
  obtain ⟨more, htold, hout⟩ := h.toTold.deliverAll hquery ys
  obtain ⟨hworks, hheld, hwritten⟩ := writeLines_of_works h.works h.held (more.map Line.json)
  refine ⟨more, htold, ?_, ?_, ?_⟩
  · rwa [hout]
  · rw [hout, hwritten, h.written, String.append_assoc, ← linesText_append, ← List.map_append]
  · rwa [hout]

/-- **The lines are the reference for what was delivered**: a sink that takes every write has one
line for each slice that gets one, in their order and with the names that were first given before
it, and nothing else; and what is read from the text is what the lines have to tell. -/
theorem written_lines (config : OutputConfig) (sink : Sink) (hquery : config.queryMode = false)
    (hworks : ∀ n, sink.accepts n = true) (xs : List Delivery) :
    let d : Dispatcher JsonLines := { handler := handler config, state := new sink }
    let out := (d.deliverAll xs).state.out
    ∃ ls, Lines config xs ls ∧
      let text := linesText (ls.map Line.json)
      out.sink.written = sink.written ++ text ∧
      out.held = "" ∧
      (∀ l ∈ ls, '\n' ∉ l.json.compact.toList) ∧
      (between text).dropLast.map Reading.ofText? = ls.map fun l => some (.of l) := by
  intro d out
  have hstart : Written config sink [] [] d :=
    { handler := rfl
      works := fun n _ => hworks n
      written := by simp [d, new, linesText]
      held := rfl
      names := knows_empty
      lines := .nil }
  obtain ⟨ls, hwritten⟩ := hstart.deliverAll hquery xs
  refine ⟨ls, hwritten.lines, hwritten.written, hwritten.held, ?_, ofText?_between ls⟩
  intro l _
  exact l.json.newline_notMem_compact

/-- A path record that names its identifier. -/
def etcPath : Bytes :=
  Bytes.toLE 8 LongKind.path.tag.toNat ++ List.replicate 56 0 ++ [4, 0, 47, 101, 116, 99] ++
    List.replicate 4282 0

/-- A relation whose sender is the identifier of that path. -/
def etcUsed : Bytes :=
  Bytes.toLE 8 (Tag.relation ||| RelationKind.used.categoryBit).toNat ++ List.replicate 56 0 ++
    Bytes.toLE 8 LongKind.path.tag.toNat ++ List.replicate 184 0

/-- The relation before and after its sender has a name, with slices between that get no line. -/
def etcDeliveries : List Delivery :=
  [.slice .short etcUsed, .slice .long etcUsed, .slice .long etcPath, .slice .short [],
    .slice .short etcUsed]

/-- An instance with a relation on both sides of the path that names its sender. -/
theorem written_lines_etc :
    ({} : OutputConfig).queryMode = false ∧ (∀ n, Sink.working.accepts n = true) ∧
      let out := (Dispatcher.deliverAll { handler := handler {}, state := new .working }
        etcDeliveries).state.out
      ∃ ls, Lines {} etcDeliveries ls ∧
        let text := linesText (ls.map Line.json)
        out.sink.written = "" ++ text ∧
        out.held = "" ∧
        (∀ l ∈ ls, '\n' ∉ l.json.compact.toList) ∧
        (between text).dropLast.map Reading.ofText? = ls.map fun l => some (.of l) :=
  ⟨rfl, fun _ => rfl, written_lines {} .working rfl (fun _ => rfl) etcDeliveries⟩

end ProvenanceRelay.Output.JsonLines
