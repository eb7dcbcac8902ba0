import LeYiDai.AFNetworking.TaskSwizzling
import Mathlib.Data.List.Chain

/-! What a task's `resume` and `suspend` do once AFNetworking is loaded. Where a class implements
    both or neither, they do what they did before and post a notification; where a class has only
    one of them, the exchange of the other reaches into a superclass. No implementation may call
    super: the message comes back down to the class that sent it. -/

namespace LeYiDai.TaskSwizzling

open MethodTable

variable {κ : Type*}

/-- The state a method brings a task into. -/
def Primitive.reached : Primitive → NSURLSessionTaskState
  | .resume => .running
  | .suspend => .suspended

def Primitive.notification : Primitive → Notification
  | .resume => .didResume
  | .suspend => .didSuspend

/-- The notification for a message that found the task in `state`. -/
def Task.noted (p : Primitive) (state : NSURLSessionTaskState) (task : Task κ) : Task κ :=
  if state ≠ p.reached then task.postNotificationName p.notification else task

/-- The platform's code, as documented, for a task that has not ended. -/
def Code.Documented (code : Code) (p : Primitive) : Prop :=
  code.work .running = p.reached ∧ code.work .suspended = p.reached

/-- The classes of a data task where two of them have methods of their own, which do not call
    super. -/
inductive SessionTaskClass where
  | localDataTask | localSessionTask | urlSessionTask | object
deriving DecidableEq

def sessionTaskClasses : TaskClasses SessionTaskClass where
  superclass
    | .localDataTask => some .localSessionTask
    | .localSessionTask => some .urlSessionTask
    | .urlSessionTask => some .object
    | .object => none
  depth
    | .localDataTask => 3
    | .localSessionTask => 2
    | .urlSessionTask => 1
    | .object => 0
  superclass_depth c d h := by
    cases c <;> cases h <;> decide
  code c p := if c = .localSessionTask ∨ c = .urlSessionTask
    then some ⟨fun _ => p.reached, false⟩ else none

namespace TaskClasses

variable {P : TaskClasses κ} {T : Table κ} {p q : Primitive} {c d k : κ} {code : Code}
  {task r : Task κ}

/-! ### Running the implementations -/

theorem body_af (P : TaskClasses κ) (p : Primitive) (task : Task κ)
    (send : Message κ → Task κ → Option (Task κ)) :
    P.body (.af p) task send =
      (send (.toSelf (.af p)) task).map (Task.noted p task.state) := by
  cases p <;> rfl

theorem body_compiled (hcode : P.code k p = some code)
    (send : Message κ → Task κ → Option (Task κ)) :
    P.body (.compiled k p) task send =
      if code.callsSuper then send (.toSuper k (.own p)) (task.worked k p code)
      else some (task.worked k p code) := by
  rw [body, hcode, Option.bind_some]

/-- Code that does not call super runs and that is all. -/
theorem answers_compiled {m : Message κ} (hm : P.look T c m = some (.compiled k p))
    (hcode : P.code k p = some code) (hsuper : code.callsSuper = false) (task : Task κ) :
    Answers (P.look T c) P.body m task (task.worked k p code) :=
  .leaf hm fun send => by simp [body_compiled hcode, hsuper]

/-- The method around the platform's, where it finds the platform's. -/
theorem answers_noted (hown : P.look T c (.toSelf (.own p)) = some (.af p))
    (haf : P.look T c (.toSelf (.af p)) = some (.compiled k p)) (hcode : P.code k p = some code)
    (hsuper : code.callsSuper = false) (task : Task κ) :
    Answers (P.look T c) P.body (.toSelf (.own p)) task
      ((task.worked k p code).noted p task.state) :=
  .followed hown (body_af P p task) (answers_compiled haf hcode hsuper task)

/-- The method around the platform's, where the platform's calls super: the superclass has been
    rewritten too, and its `af_` message is answered by the class below. -/
theorem send_eq_none_of_callsSuper (hown : P.look T c (.toSelf (.own p)) = some (.af p))
    (haf : P.look T c (.toSelf (.af p)) = some (.compiled k p)) (hcode : P.code k p = some code)
    (hsuper : code.callsSuper = true)
    (habove : P.look T c (.toSuper k (.own p)) = none ∨
      P.look T c (.toSuper k (.own p)) = some (.af p)) (n : ℕ) (task : Task κ) :
    send (P.look T c) P.body n (.toSelf (.own p)) task = none := by
  have haround : ∀ task : Task κ, ∀ send, P.body (.af p) task send =
      (send (.toSelf (.af p)) task).bind fun r => some (r.noted p task.state) := fun task send => by
    rw [body_af, Option.map_eq_bind]
    rfl
  refine send_eq_none_of_stuck (fun m _ => m = .toSelf (.own p) ∨ m = .toSelf (.af p) ∨
    m = .toSuper k (.own p)) ?_ n _ task (.inl rfl)
  rintro m task (rfl | rfl | rfl)
  · exact .inr ⟨_, _, task, _, hown, haround task, .inr (.inl rfl)⟩
  · refine .inr ⟨_, .toSuper k (.own p), task.worked k p code, some, haf, fun send => ?_,
      .inr (.inr rfl)⟩
    rw [body_compiled hcode, hsuper, if_pos rfl, Option.bind_fun_some]
  · rcases habove with hnone | hsome
    · exact .inl hnone
    · exact .inr ⟨_, _, task, _, hsome, haround task, .inr (.inl rfl)⟩

/-- The `af_` selector with its own implementation under it never comes back. -/
theorem send_eq_none_of_af (haf : P.look T c (.toSelf (.af p)) = some (.af p)) (n : ℕ)
    (task : Task κ) : send (P.look T c) P.body n (.toSelf (.af p)) task = none := by
  refine send_eq_none_of_stuck (fun m _ => m = .toSelf (.af p)) ?_ n _ task rfl
  rintro m task rfl
  refine .inr ⟨_, _, task, fun r => some (r.noted p task.state), haf, fun send => ?_, rfl⟩
  rw [body_af, Option.map_eq_bind]
  rfl

/-- Every message that comes back ran something. -/
theorem ran_of_send : ∀ (n : ℕ) (m : Message κ) (task r : Task κ),
    send (P.look T c) P.body n m task = some r →
    ∃ e es, r.ran = task.ran ++ e :: es := by
  intro n
  induction n with
  | zero =>
    intro m task r h
    cases h
  | succ n ih =>
    intro m task r h
    obtain ⟨imp, -, himp⟩ := Option.bind_eq_some_iff.mp h
    cases imp with
    | compiled k p =>
      obtain ⟨code, hcode, hrun⟩ := Option.bind_eq_some_iff.mp himp
      by_cases hsuper : code.callsSuper = true
      · rw [if_pos hsuper] at hrun
        obtain ⟨e, es, hr⟩ := ih _ _ _ hrun
        exact ⟨(k, p), e :: es, by simp [hr, Task.worked]⟩
      · rw [if_neg hsuper] at hrun
        exact ⟨(k, p), [], by simp [← Option.some.inj hrun, Task.worked]⟩
    | af p =>
      rw [body_af] at himp
      obtain ⟨r', hr', rfl⟩ := Option.map_eq_some_iff.mp himp
      obtain ⟨e, es, hr⟩ := ih _ _ _ hr'
      refine ⟨e, es, ?_⟩
      rw [← hr, Task.noted]
      split_ifs <;> rfl

/-- The platform's code is the first to run, and the only one if it does not call super. -/
theorem ran_compiled {m : Message κ} {n : ℕ} (hm : P.look T c m = some (.compiled k p))
    (h : send (P.look T c) P.body n m task = some r) :
    ∃ code es, P.code k p = some code ∧ r.ran = task.ran ++ (k, p) :: es ∧
      (es = [] → code.callsSuper = false ∧ r = task.worked k p code) := by
  cases n with
  | zero => cases h
  | succ n =>
  rw [send, hm, Option.bind_some] at h
  obtain ⟨code, hcode, hrun⟩ := Option.bind_eq_some_iff.mp h
  by_cases hsuper : code.callsSuper = true
  · rw [if_pos hsuper] at hrun
    obtain ⟨e, es, hr⟩ := ran_of_send _ _ _ _ hrun
    exact ⟨code, e :: es, hcode, by simp [hr, Task.worked], fun h => by cases h⟩
  · rw [if_neg hsuper] at hrun
    have hr := Option.some.inj hrun
    exact ⟨code, [], hcode, by simp [← hr, Task.worked], fun _ => ⟨by simpa using hsuper, hr.symm⟩⟩

variable [DecidableEq κ]

/-! ### Classes with both methods or neither -/

variable {localDataTask : κ}

/-- A class on the way up that answers `p` implements it itself exactly if it implements `resume`
    itself. -/
def Paired (P : TaskClasses κ) (localDataTask : κ) (p : Primitive) : Prop :=
  ∀ d ∈ P.ancestry localDataTask, (P.implementer p d).isSome →
    ((P.code d .resume).isSome ↔ (P.code d p).isSome)

/-- A message `p` to a task of class `c` finds the method around the platform's, and that finds the
    platform's. -/
def Wrapped (P : TaskClasses κ) (T : Table κ) (p : Primitive) (c k : κ) : Prop :=
  P.look T c (.toSelf (.own p)) = some (.af p) ∧
    P.look T c (.toSelf (.af p)) = some (.compiled k p)

theorem wrapped_of_holder (hk : P.implementer p c = some k)
    (hold : P.holder p (P.swizzled localDataTask) k = some k)
    (hfirst : (P.ancestry c).find? (· ∈ P.swizzled localDataTask) = some k) :
    P.Wrapped (load P.toHierarchy P.methods localDataTask) p c k := by
  have h := load_exchanged P localDataTask p
  constructor
  · rw [look, h.lookup_own hk, h.own k, hold]
    rfl
  · rw [look, h.lookup_af hfirst, held_of_holder hold]

omit [DecidableEq κ] in
theorem mem_swizzled : d ∈ P.swizzled localDataTask ↔
    d ∈ P.ancestry localDataTask ∧ (P.code d .resume).isSome := List.mem_filter

theorem wrapped_of_paired (hpaired : P.Paired localDataTask p) (hk : P.implementer p c = some k)
    (hup : k ∈ P.ancestry localDataTask) :
    P.Wrapped (load P.toHierarchy P.methods localDataTask) p c k := by
  have hself := implementer_self (implementer_code hk)
  have hmem : k ∈ P.swizzled localDataTask := mem_swizzled.mpr
    ⟨hup, (hpaired k hup (by rw [hself]; rfl)).mpr (implementer_code hk)⟩
  refine wrapped_of_holder hk ?_ ?_
  · -- a class that finds its code in `k` is `k`
    obtain ⟨e, he⟩ := Option.isSome_iff_exists.mp (show
      (P.holder p (P.swizzled localDataTask) k).isSome from
        List.find?_isSome.mpr ⟨k, hmem, by simpa using hself⟩)
    obtain ⟨hD, hfind⟩ := holder_some he
    obtain ⟨heup, hres⟩ := mem_swizzled.mp hD
    have hown := implementer_self ((hpaired e heup (by rw [hfind]; rfl)).mp hres)
    rw [he, ← hfind, hown]
  · -- no class below it that answers with its code is rewritten
    obtain ⟨-, as, bs, hc, has⟩ := List.find?_eq_some_iff_append.mp hk
    refine List.find?_eq_some_iff_append.mpr ⟨by simpa using hmem, as, bs, hc, fun a ha => ?_⟩
    simp only [Bool.not_eq_true', decide_eq_false_iff_not]
    intro hD
    obtain ⟨haup, hres⟩ := mem_swizzled.mp hD
    obtain ⟨l₁, l₂, rfl⟩ := List.append_of_mem ha
    have hrest := P.ancestry_of_append l₁ (by rw [hc, List.append_assoc, List.cons_append])
    have hanswers : (P.implementer p a).isSome := List.find?_isSome.mpr
      ⟨k, by simp [hrest], implementer_code hk⟩
    simpa [(hpaired a haup hanswers).mp hres] using has a ha

/-- Where the method around the platform's finds the platform's, a message comes back exactly if
    that does not call super, and does what it did before and notes it. -/
theorem answers_iff_of_paired (hpaired : P.Paired localDataTask p)
    (hk : P.implementer p c = some k) (hup : k ∈ P.ancestry localDataTask)
    (hcode : P.code k p = some code) :
    Answers (P.look (load P.toHierarchy P.methods localDataTask) c) P.body (.toSelf (.own p))
      task r ↔ code.callsSuper = false ∧
        ∃ r₀, Answers (P.look P.methods c) P.body (.toSelf (.own p)) task r₀ ∧
          r = r₀.noted p task.state := by
  obtain ⟨hown, haf⟩ := wrapped_of_paired hpaired hk hup
  have hbefore : P.look P.methods c (.toSelf (.own p)) = some (.compiled k p) := by
    rw [look, exchanged_nil.lookup_own hk, methods, hcode, Option.map_some]
  cases hsuper : code.callsSuper with
  | true =>
    have habove : P.look (load P.toHierarchy P.methods localDataTask) c (.toSuper k (.own p)) =
        none ∨ P.look (load P.toHierarchy P.methods localDataTask) c (.toSuper k (.own p)) =
          some (.af p) := by
      cases hs : P.superclass k with
      | none => exact .inl (by rw [look, hs, Option.bind_none])
      | some e =>
        have hlook : P.look (load P.toHierarchy P.methods localDataTask) c (.toSuper k (.own p)) =
            (load P.toHierarchy P.methods localDataTask).lookup P.toHierarchy e (.own p) := by
          rw [look, hs, Option.bind_some]
        rw [hlook]
        cases hf : P.implementer p e with
        | none => exact .inl ((load_exchanged P localDataTask p).lookup_own_none hf)
        | some f =>
          have heup : e ∈ P.ancestry k := by simp [P.ancestry_super hs, P.self_mem_ancestry]
          have hfup := P.ancestry_trans hup (P.ancestry_trans heup (implementer_mem hf))
          exact .inr (wrapped_of_paired hpaired hf hfup).1
    refine iff_of_false (fun h => ?_) (fun h => by cases h.1)
    obtain ⟨n, hn⟩ := h
    have hsend := hn n (Nat.le_refl n)
    rw [send_eq_none_of_callsSuper hown haf hcode hsuper habove] at hsend
    cases hsend
  | false =>
    have hafter := answers_noted hown haf hcode hsuper task
    have hfirst := answers_compiled hbefore hcode hsuper task
    constructor
    · intro h
      exact ⟨rfl, _, hfirst, h.unique hafter⟩
    · rintro ⟨-, r₀, hr₀, rfl⟩
      rw [hr₀.unique hfirst]
      exact hafter

/-- Loading keeps `resume`: a task whose `resume` stands in a class that was climbed comes back from
    it exactly if the platform's code does not call super, having done what it did before and posted
    that it resumed if it was not running. -/
theorem resume_answers_iff (hk : P.implementer .resume c = some k)
    (hup : k ∈ P.ancestry localDataTask) (hcode : P.code k .resume = some code)
    (task r : Task κ) :
    Answers (P.look (load P.toHierarchy P.methods localDataTask) c) P.body
      (.toSelf (.own .resume)) task r ↔
      code.callsSuper = false ∧
        ∃ r₀, Answers (P.look P.methods c) P.body (.toSelf (.own .resume)) task r₀ ∧
          r = r₀.noted .resume task.state :=
  answers_iff_of_paired (fun _ _ _ => Iff.rfl) hk hup hcode

/-- A data task finds its `resume` one class up. -/
theorem resume_answers_local : Answers
    (sessionTaskClasses.look
      (load sessionTaskClasses.toHierarchy sessionTaskClasses.methods .localDataTask)
      .localDataTask)
    sessionTaskClasses.body (.toSelf (.own .resume)) ⟨.suspended, [], []⟩
    ⟨.running, [(.localSessionTask, .resume)], [.didResume]⟩ :=
  (resume_answers_iff (k := .localSessionTask) rfl (by decide) rfl _ _).mpr
    ⟨rfl, _, answers_compiled (k := .localSessionTask) rfl rfl rfl _, rfl⟩

/-! ### Classes with one of the methods only -/

/-- A message `p` to a task whose code for it stands in a class that was climbed runs that code and
    notes it. -/
def Observed (P : TaskClasses κ) (localDataTask : κ) (p : Primitive) (c : κ) : Prop :=
  ∀ k, P.implementer p c = some k → k ∈ P.ancestry localDataTask →
    ∃ code, P.code k p = some code ∧ ∀ task : Task κ,
      Answers (P.look (load P.toHierarchy P.methods localDataTask) c) P.body (.toSelf (.own p))
        task ((task.worked k p code).noted p task.state)

theorem observed_of_paired (hpaired : P.Paired localDataTask p)
    (hsuper : ∀ k ∈ P.ancestry localDataTask, ∀ code, P.code k p = some code →
      code.callsSuper = false) : P.Observed localDataTask p c := by
  intro k hk hup
  obtain ⟨code, hcode⟩ := Option.isSome_iff_exists.mp (implementer_code hk)
  obtain ⟨hown, haf⟩ := wrapped_of_paired hpaired hk hup
  exact ⟨code, hcode, fun task => answers_noted hown haf hcode (hsuper k hup code hcode) task⟩

omit [DecidableEq κ] in
theorem noted_ran (p : Primitive) (state : NSURLSessionTaskState) (task : Task κ) :
    (task.noted p state).ran = task.ran := by
  rw [Task.noted]
  split_ifs <;> rfl

/-- A class whose own code is run and noted holds that code itself, and it does not call super. -/
theorem holder_of_observed (hup : k ∈ P.ancestry localDataTask)
    (hcode : P.code k p = some code) (h : P.Observed localDataTask p k) :
    P.holder p (P.swizzled localDataTask) k = some k ∧ code.callsSuper = false := by
  have hself : P.implementer p k = some k := implementer_self (by rw [hcode]; rfl)
  obtain ⟨code', hcode', hall⟩ := h k hself hup
  obtain rfl : code = code' := Option.some.inj (hcode.symm.trans hcode')
  have hT := load_exchanged P localDataTask p
  -- a task that is in neither of the states the methods reach
  obtain ⟨n, hn⟩ := hall ⟨.completed, [], []⟩
  have hsend := hn (n + 1) (Nat.le_succ n)
  have hnoted : (Task.noted p .completed (Task.worked ⟨.completed, [], []⟩ k p code)).posted =
      [p.notification] := by cases p <;> rfl
  have honly : (Task.noted p .completed (Task.worked ⟨.completed, [], []⟩ k p code)).ran =
      [(k, p)] := noted_ran _ _ _
  have hlook : P.look (load P.toHierarchy P.methods localDataTask) k (.toSelf (.own p)) =
      if (P.holder p (P.swizzled localDataTask) k).isSome then some (.af p)
      else P.methods k (.own p) := by
    rw [look, hT.lookup_own hself, hT.own k]
  cases hold : P.holder p (P.swizzled localDataTask) k with
  | none =>
    -- the class was left out: nothing is posted
    rw [hold, if_neg (by simp), methods, hcode, Option.map_some] at hlook
    obtain ⟨code', es, -, hran, hes⟩ := ran_compiled hlook hsend
    rw [honly] at hran
    have hworked := (hes (by simpa using hran)).2
    rw [hworked] at hnoted
    simp [Task.worked] at hnoted
  | some d =>
    rw [hold, Option.isSome_some, if_pos rfl] at hlook
    rw [send, hlook, Option.bind_some, body_af] at hsend
    obtain ⟨r, hr, hrnoted⟩ := Option.map_eq_some_iff.mp hsend
    have hran : r.ran = [(k, p)] := by rw [← noted_ran, hrnoted, honly]
    cases hfirst : (P.ancestry k).find? (· ∈ P.swizzled localDataTask) with
    | none =>
      have hnone : P.look (load P.toHierarchy P.methods localDataTask) k (.toSelf (.af p)) = none :=
        hT.lookup_af_none hfirst
      rw [send_eq_none_of_look hnone] at hr
      cases hr
    | some e =>
      have haf : P.look (load P.toHierarchy P.methods localDataTask) k (.toSelf (.af p)) =
          some (P.held p (P.swizzled localDataTask) e) := hT.lookup_af hfirst
      rcases held_cases (P := P) p (P.swizzled localDataTask) e with hheld | ⟨f, hheld, hf⟩
      · rw [hheld] at haf
        rw [send_eq_none_of_af haf] at hr
        cases hr
      · rw [hheld] at haf
        obtain ⟨code', es, hcode', hfran, hes⟩ := ran_compiled haf hr
        rw [hran] at hfran
        simp only [List.nil_append, List.cons.injEq, Prod.mk.injEq] at hfran
        obtain ⟨⟨rfl, -⟩, rfl⟩ := hfran
        obtain rfl : code = code' := Option.some.inj (hcode.symm.trans hcode')
        have hek := implementer_antisymm (holder_some hf).2 (List.mem_of_find?_eq_some hfirst)
        rw [← hold, hf, hek]
        exact ⟨rfl, (hes rfl).1⟩

omit [DecidableEq κ] in
/-- What stands after a class in the list of the rewritten ones stands above it. -/
theorem mem_ancestry_of_swizzled {as bs : List κ} (h : P.swizzled localDataTask = as ++ k :: bs)
    (hd : d ∈ bs) : d ∈ P.ancestry k := by
  obtain ⟨l₁, l₂, hup, -, hl₂⟩ := List.filter_eq_append_iff.mp h
  obtain ⟨l₃, l₄, rfl, -, -, hl₄⟩ := List.filter_eq_cons_iff.mp hl₂
  rw [P.ancestry_of_append (l₁ ++ l₃) (by rw [hup, List.append_assoc])]
  rw [← hl₄] at hd
  exact List.mem_cons_of_mem _ (List.mem_filter.mp hd).1

/-- Messages `suspend` to all classes that are climbed are observed exactly if, where `suspend` is
    answered at all, a class has both methods or neither, and no `suspend` calls super. -/
theorem suspend_observed_iff (P : TaskClasses κ) (localDataTask : κ) :
    (∀ c, P.Observed localDataTask .suspend c) ↔
      P.Paired localDataTask .suspend ∧ ∀ k ∈ P.ancestry localDataTask, ∀ code,
        P.code k .suspend = some code → code.callsSuper = false := by
  constructor
  · intro h
    have hholder : ∀ k code, k ∈ P.ancestry localDataTask → P.code k .suspend = some code →
        P.holder .suspend (P.swizzled localDataTask) k = some k ∧ code.callsSuper = false :=
      fun k code hup hcode => holder_of_observed hup hcode (h k)
    refine ⟨fun d hup hd => ?_, fun k hup code hcode => (hholder k code hup hcode).2⟩
    obtain ⟨k, hk⟩ := Option.isSome_iff_exists.mp hd
    obtain ⟨code, hcode⟩ := Option.isSome_iff_exists.mp (implementer_code hk)
    have hold := (hholder k code (P.ancestry_trans hup (implementer_mem hk)) hcode).1
    constructor
    · intro hres
      -- `d` finds its code in `k`, and `k` is the first of the rewritten classes that does
      obtain ⟨-, as, bs, hD, has⟩ := List.find?_eq_some_iff_append.mp hold
      have hmem : d ∈ as ++ k :: bs := hD ▸ mem_swizzled.mpr ⟨hup, hres⟩
      rcases List.mem_append.mp hmem with hbefore | hafter
      · simpa [hk] using has d hbefore
      · rcases List.mem_cons.mp hafter with rfl | hafter
        · rw [hcode]
          rfl
        · rw [implementer_antisymm hk (mem_ancestry_of_swizzled hD hafter), hcode]
          rfl
    · intro hown
      rw [implementer_self hown] at hk
      obtain rfl := Option.some.inj hk
      exact (mem_swizzled.mp (holder_some hold).1).2
  · rintro ⟨hpaired, hsuper⟩ c
    exact observed_of_paired hpaired hsuper

/-! ### A task over its messages -/

/-- The messages are sent one after the other, and each comes back. -/
def Sent (P : TaskClasses κ) (T : Table κ) (c : κ) : List Primitive → Task κ → Task κ → Prop
  | [], task, r => r = task
  | p :: ps, task, r =>
      ∃ task', Answers (P.look T c) P.body (.toSelf (.own p)) task task' ∧ Sent P T c ps task' r

/-- The notifications of a task that has not ended take turns, and the last one tells its state. -/
structure Telling (task : Task κ) : Prop where
  notEnded : task.state = .running ∨ task.state = .suspended
  turns : task.posted.IsChain (· ≠ ·)
  first : task.posted.head? ≠ some .didSuspend
  last : task.state = .running ↔ task.posted.getLast? = some .didResume

omit [DecidableEq κ] in
theorem telling_noted (h : Telling task) (hdoc : code.Documented p) (k : κ) :
    Telling ((task.worked k p code).noted p task.state) := by
  obtain ⟨state, ran, posted⟩ := task
  obtain ⟨hnot, hturns, hfirst, hlast⟩ := h
  obtain ⟨hrunning, hsuspended⟩ := hdoc
  -- a notification other than the last one can follow
  have hfollow : ∀ name, posted.getLast? ≠ some name → (posted ++ [name]).IsChain (· ≠ ·) := by
    intro name hname
    refine List.isChain_append.mpr ⟨hturns, List.isChain_singleton name, fun x hx y hy => ?_⟩
    rintro rfl
    obtain rfl : name = x := by simpa using hy
    exact hname hx
  rcases hnot with rfl | rfl
  · have hresumed : posted.getLast? = some .didResume := hlast.mp rfl
    cases p with
    | resume => exact ⟨.inl hrunning, hturns, hfirst, by simpa [Task.noted, Task.worked,
        Primitive.reached, hrunning] using hlast⟩
    | suspend =>
      refine ⟨.inr hrunning, hfollow .didSuspend (by simp [hresumed]), ?_, ?_⟩
      · obtain ⟨name, names, rfl⟩ : ∃ name names, posted = name :: names :=
          List.exists_cons_of_ne_nil fun h => by simp [h] at hresumed
        exact hfirst
      · simp [Task.noted, Task.worked, Primitive.reached, Primitive.notification,
          Task.postNotificationName, hrunning]
  · have hnotResumed : posted.getLast? ≠ some .didResume := fun h => by
      cases hlast.mpr h
    cases p with
    | resume =>
      refine ⟨.inl hsuspended, hfollow .didResume hnotResumed, ?_, ?_⟩
      · cases posted with
        | nil => exact fun h => by cases h
        | cons name names => exact hfirst
      · simp [Task.noted, Task.worked, Primitive.reached, Primitive.notification,
          Task.postNotificationName, hsuspended]
    | suspend => exact ⟨.inr hsuspended, hturns, hfirst, by simpa [Task.noted, Task.worked,
        Primitive.reached, hsuspended] using hlast⟩

theorem telling_of_sent (hobserved : ∀ p, P.Observed localDataTask p c)
    (hup : ∀ p, ∃ k, P.implementer p c = some k ∧ k ∈ P.ancestry localDataTask)
    (hdoc : ∀ p k code, P.code k p = some code → code.Documented p) :
    ∀ (ps : List Primitive) (task : Task κ), Telling task →
      (∃ r, P.Sent (load P.toHierarchy P.methods localDataTask) c ps task r) ∧
      ∀ r, P.Sent (load P.toHierarchy P.methods localDataTask) c ps task r → Telling r
  | [], task, h => ⟨⟨task, rfl⟩, fun r hr => hr ▸ h⟩
  | p :: ps, task, h => by
      obtain ⟨k, hk, hkup⟩ := hup p
      obtain ⟨code, hcode, hall⟩ := hobserved p k hk hkup
      obtain ⟨⟨r, hr⟩, hrest⟩ := telling_of_sent hobserved hup hdoc ps _
        (telling_noted h (hdoc p k code hcode) k)
      refine ⟨⟨r, _, hall task, hr⟩, fun r' hr' => ?_⟩
      obtain ⟨task', hfirst, hsent⟩ := hr'
      rw [hfirst.unique (hall task)] at hsent
      exact hrest r' hsent

/-- Any messages to a new task, whose class finds both methods among the climbed ones, all come
    back; its notifications take turns, begin with one that it resumed, and the last one tells
    whether it is running. -/
theorem notifications_take_turns (hpaired : P.Paired localDataTask .suspend)
    (hsuper : ∀ k ∈ P.ancestry localDataTask, ∀ p code, P.code k p = some code →
      code.callsSuper = false)
    (hdoc : ∀ p k code, P.code k p = some code → code.Documented p)
    (hup : ∀ p, ∃ k, P.implementer p c = some k ∧ k ∈ P.ancestry localDataTask)
    (ps : List Primitive) :
    (∃ r, P.Sent (load P.toHierarchy P.methods localDataTask) c ps ⟨.suspended, [], []⟩ r) ∧
      ∀ r, P.Sent (load P.toHierarchy P.methods localDataTask) c ps ⟨.suspended, [], []⟩ r →
        Telling r := by
  refine telling_of_sent (fun p => ?_) hup hdoc ps _ ⟨.inr rfl, List.isChain_nil, ?_, ?_⟩
  · cases p with
    | resume => exact observed_of_paired (fun _ _ _ => Iff.rfl) fun k hk => hsuper k hk .resume
    | suspend => exact observed_of_paired hpaired fun k hk => hsuper k hk .suspend
  · exact fun h => by cases h
  · exact iff_of_false (fun h => by cases h) fun h => by cases h

theorem notifications_take_turns_local :
    (∃ r, sessionTaskClasses.Sent
      (load sessionTaskClasses.toHierarchy sessionTaskClasses.methods .localDataTask) .localDataTask
      [.resume, .resume, .suspend] ⟨.suspended, [], []⟩ r) ∧ ∀ r, sessionTaskClasses.Sent
      (load sessionTaskClasses.toHierarchy sessionTaskClasses.methods .localDataTask) .localDataTask
      [.resume, .resume, .suspend] ⟨.suspended, [], []⟩ r → Telling r :=
  notifications_take_turns (fun k _ _ => by cases k <;> exact Iff.rfl) (fun k _ p code h => by
      cases k <;> cases h <;> rfl)
    (fun p k code h => by cases k <;> cases h <;> exact ⟨rfl, rfl⟩)
    (fun p => ⟨.localSessionTask, rfl, by decide⟩) _

end TaskClasses

end LeYiDai.TaskSwizzling
