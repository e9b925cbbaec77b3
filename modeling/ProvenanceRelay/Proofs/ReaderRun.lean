import Mathlib
import ProvenanceRelay.Proofs.Acts
import ProvenanceRelay.Proofs.Framing
import ProvenanceRelay.Reader

/-!
What a reader does on its own.

As long as it can be pinned and no call panics, a reader's acts are those of its plan: the handler
is initialized, and then comes what the loop asks for, deed by deed. A reader that has gone has done
all of it.
-/

namespace ProvenanceRelay.Reader

def Input.isSmooth : Input → Bool
  | .polled (some _) | .read (.failed _) => false
  | _ => true

/-- Nothing fails: the reader is pinned if it is to be, its channel can be waited for and read, and
no call panics. -/
def News.isSmooth : News → Bool
  | .pinned (some _) | .panic => false
  | .loop i => i.isSmooth
  | _ => true

variable (policy : Policy)

/-! ### Runs -/

def run (r : Reader) (ns : List News) : Reader := ns.foldl (fun r n => (r.step policy n).1) r

@[simp] lemma run_nil (r : Reader) : r.run policy [] = r := rfl
@[simp] lemma run_cons (r : Reader) (n : News) (ns : List News) :
    r.run policy (n :: ns) = (r.step policy n).1.run policy ns := rfl

def actOf? (r : Reader) (n : News) : Option Act :=
  match (r.step policy n).2 with
  | some (.act a) => some a
  | _ => none

def acts (r : Reader) : List News → List Act
  | [] => []
  | n :: ns => (r.actOf? policy n).toList ++ acts (r.step policy n).1 ns

/-- What the loop learns in a step, if it is the loop that goes on. -/
def input? (r : Reader) (n : News) : Option Input :=
  match r.todo, r.stage, n with
  | [], .looping _, .loop i => some i
  | _, _, _ => none

def inputs (r : Reader) : List News → List Input
  | [] => []
  | n :: ns => (r.input? n).toList ++ inputs (r.step policy n).1 ns

def taken (r : Reader) (n : News) : Bytes :=
  match r.todo, r.stage, n with
  | [], .looping p, .loop i => r.drain.taken p i
  | _, _, _ => []

def consumed (r : Reader) : List News → Bytes
  | [] => []
  | n :: ns => r.taken n ++ consumed (r.step policy n).1 ns

/-! ### The plan -/

/-- The acts of a reader whose loop has come to `s`. -/
def plan (r : Reader) (s : Drain.Progress) : List Act :=
  .call .init :: s.deeds.flatMap (deedActs policy r.channel.shape)

/-- What has been done and what is left to do make up the plan. -/
def OnCourse (r : Reader) (done : List Act) (s : Drain.Progress) : Prop :=
  match r.stage with
  | .pinning | .initializing => done = [] ∧ r.todo = [] ∧ s = {}
  | .acknowledging | .acknowledged => done = [.call .init] ∧ r.todo = [] ∧ s = {}
  | .looping p => s.phase = p ∧ done ++ r.todo = r.plan policy s
  | .closing | .gone => r.todo = [] ∧ done = r.plan policy s ∧ (s.phase = .done ∨ s = {})
  | .refused _ | .unwinding => False

variable {policy}

lemma move_fixed (r : Reader) (n : News) :
    (r.move policy n).1.channel = r.channel ∧ (r.move policy n).1.perDrain = r.perDrain := by
  cases n <;> simp only [move] <;> split <;> try exact ⟨rfl, rfl⟩
  all_goals split <;> exact ⟨rfl, rfl⟩

/-- A step changes neither the channel nor the room for its records. -/
lemma step_fixed (r : Reader) (n : News) :
    (r.step policy n).1.channel = r.channel ∧ (r.step policy n).1.perDrain = r.perDrain := by
  unfold step
  split
  · exact r.move_fixed _
  all_goals exact ⟨rfl, rfl⟩

lemma drain_step (r : Reader) (n : News) : (r.step policy n).1.drain = r.drain := by
  have hfixed : (r.step policy n).1.channel = r.channel ∧
      (r.step policy n).1.perDrain = r.perDrain := r.step_fixed n
  simp only [drain, hfixed.1, hfixed.2]

lemma News.cases_of_isSmooth {n : News} (h : n.isSmooth) :
    n = .pinned none ∨ n = .go ∨ ∃ i, n = .loop i := by
  rcases n with (_ | e) | i | _ | _
  · exact .inl rfl
  · simp [isSmooth] at h
  · exact .inr (.inr ⟨i, rfl⟩)
  · exact .inr (.inl rfl)
  · simp [isSmooth] at h

section

variable {r : Reader} {done : List Act} {s : Drain.Progress} {n : News}

lemma OnCourse.idle (h : r.OnCourse policy done s) (hstep : r.step policy n = (r, none))
    (hinput : r.input? n = none) :
    (r.step policy n).1.OnCourse policy (done ++ (r.actOf? policy n).toList)
      (r.drain.run s (r.input? n).toList) := by
  simpa [actOf?, hstep, hinput] using h

lemma OnCourse.loop {p : Phase} (h : r.OnCourse policy done s) (htodo : r.todo = [])
    (hstage : r.stage = .looping p) (i : Input) :
    (r.step policy (.loop i)).1.OnCourse policy (done ++ (r.actOf? policy (.loop i)).toList)
      (r.drain.run s (r.input? (.loop i)).toList) := by
  obtain ⟨channel, perDrain, pins, stage, todo, panicked⟩ := r
  obtain rfl : todo = [] := htodo
  obtain rfl : stage = .looping p := hstage
  obtain ⟨rfl, hplan⟩ := h
  have hnow : done = .call .init :: s.deeds.flatMap (deedActs policy channel.shape) :=
    (List.append_nil done).symm.trans hplan
  refine ⟨rfl, ?_⟩
  show done ++ [] ++ ((Drain.step ⟨channel.shape, perDrain⟩ s.phase i).2.flatMap _) =
    .call .init :: (s.deeds ++ (Drain.step ⟨channel.shape, perDrain⟩ s.phase i).2).flatMap _
  rw [List.append_nil, List.flatMap_append, hnow]
  rfl

lemma OnCourse.move (h : r.OnCourse policy done s) (htodo : r.todo = []) (hn : n.isSmooth) :
    (r.step policy n).1.OnCourse policy (done ++ (r.actOf? policy n).toList)
      (r.drain.run s (r.input? n).toList) := by
  obtain ⟨channel, perDrain, pins, stage, todo, panicked⟩ := r
  obtain rfl : todo = [] := htodo
  -- only what the stage waits for takes the reader on
  cases stage with
  | pinning =>
    obtain ⟨rfl, -, rfl⟩ := h
    rcases News.cases_of_isSmooth hn with rfl | rfl | ⟨i, rfl⟩
    · cases pins <;> exact ⟨rfl, rfl, rfl⟩
    · cases pins <;> exact ⟨rfl, rfl, rfl⟩
    · exact ⟨rfl, rfl, rfl⟩
  | refused => exact h.elim
  | initializing =>
    obtain ⟨rfl, -, rfl⟩ := h
    rcases News.cases_of_isSmooth hn with rfl | rfl | ⟨i, rfl⟩ <;> exact ⟨rfl, rfl, rfl⟩
  | acknowledging =>
    obtain ⟨rfl, -, rfl⟩ := h
    rcases News.cases_of_isSmooth hn with rfl | rfl | ⟨i, rfl⟩ <;> exact ⟨rfl, rfl, rfl⟩
  | acknowledged =>
    rcases News.cases_of_isSmooth hn with rfl | rfl | ⟨i, rfl⟩
    · exact h.idle rfl rfl
    · obtain ⟨rfl, -, rfl⟩ := h
      simp only [step, Reader.move, actOf?, input?]
      split
      · exact ⟨rfl, rfl, .inr rfl⟩
      · exact ⟨rfl, rfl⟩
    · exact h.idle rfl rfl
  | looping p =>
    rcases News.cases_of_isSmooth hn with rfl | rfl | ⟨i, rfl⟩
    · exact h.idle rfl rfl
    · cases p with
      | done =>
        obtain ⟨hp, hplan⟩ := h
        exact ⟨rfl, hplan, .inl hp⟩
      | _ => exact h.idle rfl rfl
    · exact h.loop rfl rfl i
  | unwinding => exact h.elim
  | closing =>
    rcases News.cases_of_isSmooth hn with rfl | rfl | ⟨i, rfl⟩
    · exact h.idle rfl rfl
    · obtain ⟨-, hdone, hs⟩ := h
      exact ⟨rfl, (List.append_nil done).trans hdone, hs⟩
    · exact h.idle rfl rfl
  | gone =>
    rcases News.cases_of_isSmooth hn with rfl | rfl | ⟨i, rfl⟩ <;> exact h.idle rfl rfl

/-- **What has been done and what is left to do make up the plan after every step.** -/
lemma OnCourse.step (h : r.OnCourse policy done s) (hn : n.isSmooth) :
    (r.step policy n).1.OnCourse policy (done ++ (r.actOf? policy n).toList)
      (r.drain.run s (r.input? n).toList) := by
  cases htodo : r.todo with
  | nil => exact h.move htodo hn
  | cons a as =>
    obtain ⟨channel, perDrain, pins, stage, todo, panicked⟩ := r
    obtain rfl : todo = a :: as := htodo
    -- only a reader in its loop has something left to do
    cases stage with
    | looping p =>
      obtain ⟨hp, hplan⟩ := h
      rcases News.cases_of_isSmooth hn with rfl | rfl | ⟨i, rfl⟩
      · exact OnCourse.idle ⟨hp, hplan⟩ (by cases a <;> rfl) rfl
      · refine ⟨hp, ?_⟩
        show done ++ [a] ++ as = _
        rw [List.append_assoc]
        exact hplan
      · exact OnCourse.idle ⟨hp, hplan⟩ (by cases a <;> rfl) rfl
    | refused | unwinding => exact h.elim
    | closing | gone => exact absurd h.1 (by simp)
    | _ => exact absurd h.2.1 (by simp)

end

/-- A reader that has just been made. -/
structure Fresh (r : Reader) : Prop where
  stage : r.stage = .pinning
  todo : r.todo = []

variable {r : Reader} {ns : List News}

lemma OnCourse.run {done : List Act} {s : Drain.Progress} (h : r.OnCourse policy done s)
    (hns : ∀ n ∈ ns, n.isSmooth) :
    (r.run policy ns).OnCourse policy (done ++ r.acts policy ns)
      (r.drain.run s (r.inputs policy ns)) := by
  induction ns generalizing r done s with
  | nil => simpa [acts, inputs] using h
  | cons n ns ih =>
    have h' := ih (h.step (hns n (by simp))) fun m hm => hns m (by simp [hm])
    rw [r.drain_step, List.append_assoc, ← Drain.run_append] at h'
    exact h'

lemma OnCourse.consumed_step {done : List Act} {s : Drain.Progress} {n : News}
    (h : r.OnCourse policy done s) :
    (r.drain.run s (r.input? n).toList).consumed = s.consumed ++ r.taken n := by
  obtain ⟨channel, perDrain, pins, stage, todo, panicked⟩ := r
  unfold input? taken
  split
  · next p i htodo hstage =>
    obtain rfl : stage = .looping p := hstage
    obtain ⟨rfl, -⟩ := h
    rfl
  · rw [Option.toList_none, Drain.run_nil, List.append_nil]

lemma OnCourse.consumed_run {done : List Act} {s : Drain.Progress}
    (h : r.OnCourse policy done s) (hns : ∀ n ∈ ns, n.isSmooth) :
    (r.drain.run s (r.inputs policy ns)).consumed = s.consumed ++ r.consumed policy ns := by
  induction ns generalizing r done s with
  | nil => simp [consumed, inputs]
  | cons n ns ih =>
    have h' := ih (h.step (hns n (by simp))) fun m hm => hns m (by simp [hm])
    rw [r.drain_step, ← Drain.run_append, h.consumed_step, List.append_assoc] at h'
    exact h'

lemma run_fixed (r : Reader) (ns : List News) : (r.run policy ns).channel = r.channel := by
  induction ns generalizing r with
  | nil => rfl
  | cons n ns ih => rw [run_cons, ih, (r.step_fixed n).1]

/-! ### What the loop learns -/

def News.input? : News → Option Input
  | .loop i => some i
  | _ => none

lemma News.eq_loop_of_input? {n : News} {i : Input} (h : n.input? = some i) : n = .loop i := by
  cases n with
  | loop j => rw [Option.some.inj h]
  | _ => cases h

lemma inputs_sublist (r : Reader) (ns : List News) :
    (r.inputs policy ns).Sublist (ns.filterMap News.input?) := by
  induction ns generalizing r with
  | nil => exact List.Sublist.refl []
  | cons n ns ih =>
    have hrest := ih (r.step policy n).1
    unfold inputs Reader.input?
    split
    · exact hrest.cons_cons _
    · exact hrest.trans ((List.sublist_cons_self _ ns).filterMap _)

lemma isSmooth_of_mem_inputs {i : Input} (hns : ∀ n ∈ ns, n.isSmooth)
    (hi : i ∈ r.inputs policy ns) : i.isSmooth := by
  obtain ⟨n, hn, hi⟩ := List.mem_filterMap.mp ((r.inputs_sublist ns).subset hi)
  obtain rfl := News.eq_loop_of_input? hi
  exact hns (.loop i) hn

lemma Input.isReadFault_of_isSmooth {i : Input} (h : i.isSmooth) : i.isReadFault = false := by
  rcases i with _ | _ | (_ | _ | _ | e) | _ <;> simp_all [isSmooth, isReadFault]

def Deed.isSmooth : Deed → Bool
  | .fault _ => false
  | _ => true

lemma Drain.isSmooth_of_mem_release {d : Drain} {buf : Bytes} {e : Deed}
    (he : e ∈ (d.release buf).2) : e.isSmooth := by
  unfold release at he
  split at he
  · simp at he
  · obtain rfl : e = .drained := by simpa using he
    rfl

lemma Drain.isSmooth_of_mem_settle {d : Drain} {buf : Bytes} {e : Deed}
    (he : e ∈ (d.settle buf).2) : e.isSmooth := by
  unfold settle at he
  split at he
  · exact isSmooth_of_mem_release he
  · simp at he

lemma Drain.isSmooth_of_mem_step {d : Drain} {p : Phase} {i : Input} (hi : i.isSmooth) {e : Deed}
    (he : e ∈ (d.step p i).2) : e.isSmooth := by
  have hm := d.move p i
  generalize (d.step p i).1 = q, (d.step p i).2 = es, d.taken p i = t at hm he
  cases hm with
  | pollFault | readFault => simp [Input.isSmooth] at hi
  | get | block => exact isSmooth_of_mem_settle he
  | abandon => exact isSmooth_of_mem_release he
  | dispatch =>
    obtain rfl := List.mem_singleton.mp he
    rfl
  | _ => simp at he

lemma Drain.isSmooth_of_mem_run {d : Drain} {s : Progress} {is : List Input}
    (his : ∀ i ∈ is, i.isSmooth) (hs : ∀ e ∈ s.deeds, e.isSmooth) :
    ∀ e ∈ (d.run s is).deeds, e.isSmooth := by
  induction is generalizing s with
  | nil => exact hs
  | cons i is ih =>
    refine ih (fun j hj => his j (by simp [hj])) fun e he => ?_
    rcases List.mem_append.mp he with he | he
    · exact hs e he
    · exact isSmooth_of_mem_step (his i (by simp)) he

/-! ### The acts of a plan -/

/-- Whatever is picked of the acts but the counts of drains comes from the slices. -/
lemma filterMap_deeds {α : Type} {f : Act → Option α} (hf : f (.count .drains) = none)
    {shape : Shape} {ds : List Deed} (hds : ∀ e ∈ ds, e.isSmooth) :
    (ds.flatMap (deedActs policy shape)).filterMap f =
      ((dispatched ds).flatMap (Dispatch.acts policy shape)).filterMap f := by
  induction ds with
  | nil => rfl
  | cons e ds ih =>
    rw [List.flatMap_cons, List.filterMap_append, ih fun g hg => hds g (by simp [hg])]
    cases e with
    | fault m => exact absurd (hds (.fault m) (by simp)) (by simp [Deed.isSmooth])
    | drained =>
      rw [deedActs, List.filterMap_cons_none hf]
      rfl
    | dispatch bs =>
      rw [← List.filterMap_append]
      rfl

lemma calls_deeds {shape : Shape} {ds : List Deed} (hds : ∀ e ∈ ds, e.isSmooth) :
    calls (ds.flatMap (deedActs policy shape)) =
      (dispatched ds).flatMap fun bs => calls (Dispatch.acts policy shape bs) := by
  rw [calls, filterMap_deeds rfl hds, ← calls, calls_flatMap]

lemma tally_deeds {shape : Shape} {c : Counter} (hc : c ≠ .drains) {ds : List Deed}
    (hds : ∀ e ∈ ds, e.isSmooth) :
    tally c (ds.flatMap (deedActs policy shape)) =
      tally c ((dispatched ds).flatMap (Dispatch.acts policy shape)) := by
  induction ds with
  | nil => rfl
  | cons e ds ih =>
    rw [List.flatMap_cons, tally_append, ih fun f hf => hds f (by simp [hf])]
    cases e with
    | fault m => exact absurd (hds (.fault m) (by simp)) (by simp [Deed.isSmooth])
    | drained =>
      have hnone : tally c (deedActs policy shape .drained) = 0 := by
        simp [deedActs, tally, Act.counts, hc.symm]
      rw [hnone, Nat.zero_add]
      rfl
    | dispatch bs =>
      rw [← tally_append]
      rfl

/-! ### The end -/

lemma Fresh.onCourse (h : r.Fresh) : r.OnCourse policy [] {} := by
  simp [OnCourse, h.stage, h.todo]

lemma Fresh.exists_deeds (h : r.Fresh) (hns : ∀ n ∈ ns, n.isSmooth)
    (hclear : StaysCleared (ns.filterMap News.input?))
    (hgone : (r.run policy ns).stage = .gone) :
    ∃ ds : List Deed, (∀ e ∈ ds, e.isSmooth) ∧
      dispatched ds = records r.channel.shape.size (r.consumed policy ns) ∧
      r.acts policy ns = .call .init :: ds.flatMap (deedActs policy r.channel.shape) := by
  set s := r.drain.run {} (r.inputs policy ns) with hs
  have hinputs : ∀ i ∈ r.inputs policy ns, i.isSmooth := fun i hi => isSmooth_of_mem_inputs hns hi
  have hdeeds : ∀ e ∈ s.deeds, e.isSmooth := Drain.isSmooth_of_mem_run hinputs (by simp)
  have hconsumed : s.consumed = r.consumed policy ns := by
    rw [hs, h.onCourse.consumed_run hns]
    rfl
  have hcourse : (r.run policy ns).OnCourse policy (r.acts policy ns)
      (r.drain.run {} (r.inputs policy ns)) := by
    simpa using h.onCourse.run hns
  simp only [OnCourse, hgone, ← hs] at hcourse
  obtain ⟨-, hdone, hend⟩ := hcourse
  refine ⟨s.deeds, hdeeds, ?_, by rw [hdone, plan, run_fixed]⟩
  rw [← hconsumed]
  rcases hend with hend | hend
  · exact Drain.dispatched_of_done
      (fun i hi => Input.isReadFault_of_isSmooth (hinputs i hi))
      (hclear.sublist (r.inputs_sublist ns)) hend
  · rw [hend, records_of_length_lt r.channel.shape.size_pos]
    rfl

/-- **A reader that has gone has carried out the plan of its whole channel.** -/
lemma Fresh.acts_of_gone (h : r.Fresh) (hns : ∀ n ∈ ns, n.isSmooth)
    (hclear : StaysCleared (ns.filterMap News.input?))
    (hgone : (r.run policy ns).stage = .gone) :
    let acts := (records r.channel.shape.size (r.consumed policy ns)).flatMap
      (Dispatch.acts policy r.channel.shape)
    calls (r.acts policy ns) = .init :: calls acts ∧
      ∀ c ≠ .drains, tally c (r.acts policy ns) = tally c acts := by
  intro acts
  obtain ⟨ds, hdeeds, hrecords, hplan⟩ := h.exists_deeds hns hclear hgone
  refine ⟨?_, fun c hc => ?_⟩
  · rw [hplan, ← List.singleton_append, calls_append, calls_deeds hdeeds, hrecords,
      calls_flatMap]
    rfl
  · have hnone : tally c [.call .init] = 0 := rfl
    rw [hplan, ← List.singleton_append, tally_append, tally_deeds hc hdeeds, hrecords, hnone,
      Nat.zero_add]

/-- What is picked of the acts of a reader that has gone comes from the records of its channel. -/
lemma Fresh.filterMap_acts_of_gone {α : Type} {f : Act → Option α}
    (hdrains : f (.count .drains) = none) (hinit : f (.call .init) = none) (h : r.Fresh)
    (hns : ∀ n ∈ ns, n.isSmooth) (hclear : StaysCleared (ns.filterMap News.input?))
    (hgone : (r.run policy ns).stage = .gone) :
    (r.acts policy ns).filterMap f =
      ((records r.channel.shape.size (r.consumed policy ns)).flatMap
        (Dispatch.acts policy r.channel.shape)).filterMap f := by
  obtain ⟨ds, hdeeds, hrecords, hplan⟩ := h.exists_deeds hns hclear hgone
  rw [hplan, List.filterMap_cons_none hinit, filterMap_deeds hdrains hdeeds, hrecords]

end ProvenanceRelay.Reader
