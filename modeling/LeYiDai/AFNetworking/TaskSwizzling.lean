import LeYiDai.Lib.MethodTable
import Mathlib.Data.List.Basic

/-! The load method of AFNetworking: it climbs from the class of a data task and puts `af_resume`
    and `af_suspend` around the platform's `resume` and `suspend`, so that a task whose state they
    change posts a notification. A class is rewritten when its own `resume` is not the one above it
    and not `af_resume` already.

        resume ──▶ af_resume:  state ──▶ af_resume ──▶ the platform's resume ──▶ notification
                   (exchanged)           (exchanged)                                          -/

namespace LeYiDai.TaskSwizzling

open MethodTable

variable {κ : Type*}

/-! ### The runtime -/

inductive NSURLSessionTaskState where
  | running | suspended | canceling | completed
deriving DecidableEq

/-- The methods of a task that the platform implements. -/
inductive Primitive where
  | resume | suspend
deriving DecidableEq

/-- `resume` and `suspend`, and with `af` the two selectors put beside them. -/
inductive Selector where
  | own (p : Primitive)
  | af (p : Primitive)
deriving DecidableEq

/-- An implementation: one that a class was compiled with, or one of AFNetworking's. -/
inductive IMP (κ : Type*) where
  | compiled (c : κ) (p : Primitive)
  | af (p : Primitive)
deriving DecidableEq

inductive Notification where
  | didResume | didSuspend
deriving DecidableEq

/-- What the platform's code for a method does: its work on the state, and whether it then calls
    super. -/
structure Code where
  work : NSURLSessionTaskState → NSURLSessionTaskState
  callsSuper : Bool

/-- The platform's classes with the methods each was compiled with. -/
structure TaskClasses (κ : Type*) extends Hierarchy κ where
  code : κ → Primitive → Option Code

/-- A task, with the code that ran on it and the notifications it was the object of. -/
structure Task (κ : Type*) where
  state : NSURLSessionTaskState
  ran : List (κ × Primitive)
  posted : List Notification

def Task.worked (task : Task κ) (c : κ) (p : Primitive) (code : Code) : Task κ :=
  { task with state := code.work task.state, ran := task.ran ++ [(c, p)] }

def Task.postNotificationName (task : Task κ) (name : Notification) : Task κ :=
  { task with posted := task.posted ++ [name] }

/-- A message to the receiver, or one that starts above the class it is sent in. -/
inductive Message (κ : Type*) where
  | toSelf (s : Selector)
  | toSuper (c : κ) (s : Selector)

abbrev Table (κ : Type*) := MethodTable κ Selector (IMP κ)

namespace TaskClasses

variable (P : TaskClasses κ)

/-- The table before anything is rewritten: no class has the `af_` methods. -/
def methods : Table κ
  | c, .own p => (P.code c p).map fun _ => .compiled c p
  | _, .af _ => none

/-- The implementation a message to a task of class `c` reaches. -/
def look (T : Table κ) (c : κ) : Message κ → Option (IMP κ)
  | .toSelf s => T.lookup P.toHierarchy c s
  | .toSuper d s => (P.superclass d).bind fun e => T.lookup P.toHierarchy e s

end TaskClasses

/-! ### The methods that are put around the platform's -/

/-- The state is read before the message that reaches the platform's code. -/
def messageAndPost (state : NSURLSessionTaskState) (s : Selector) (name : Notification)
    (task : Task κ) (send : Message κ → Task κ → Option (Task κ)) : Option (Task κ) :=
  (send (.toSelf s) task).map fun task' =>
    if task.state ≠ state then task'.postNotificationName name else task'

def af_resume (task : Task κ) (send : Message κ → Task κ → Option (Task κ)) : Option (Task κ) :=
  messageAndPost .running (.af .resume) .didResume task send

def af_suspend (task : Task κ) (send : Message κ → Task κ → Option (Task κ)) :
    Option (Task κ) :=
  messageAndPost .suspended (.af .suspend) .didSuspend task send

/-- How an implementation runs on a task. -/
def TaskClasses.body (P : TaskClasses κ) :
    IMP κ → Task κ → (Message κ → Task κ → Option (Task κ)) → Option (Task κ)
  | .compiled c p, task, send =>
      (P.code c p).bind fun code =>
        if code.callsSuper then send (.toSuper c (.own p)) (task.worked c p code)
        else some (task.worked c p code)
  | .af .resume, task, send => af_resume task send
  | .af .suspend, task, send => af_suspend task send

/-! ### Loading -/

variable [DecidableEq κ]

def af_swizzleSelector (H : Hierarchy κ) (T : Table κ) (theClass : κ)
    (originalSelector swizzledSelector : Selector) : Table κ :=
  match getInstanceMethod H T theClass originalSelector,
      getInstanceMethod H T theClass swizzledSelector with
  | some originalMethod, some swizzledMethod =>
      T.exchangeImplementations originalMethod swizzledMethod
  | _, _ => T

def af_addMethod (T : Table κ) (theClass : κ) (selector : Selector) (imp : IMP κ) :
    Option (Table κ) := T.addMethod theClass selector (some imp)

/-- Half of `swizzleResumeAndSuspendMethodForClass:`. -/
def swizzleMethod (H : Hierarchy κ) (T : Table κ) (theClass : κ) (p : Primitive) : Table κ :=
  match af_addMethod T theClass (.af p) (.af p) with
  | some T => af_swizzleSelector H T theClass (.own p) (.af p)
  | none => T

def swizzleResumeAndSuspendMethodForClass (H : Hierarchy κ) (T : Table κ) (theClass : κ) :
    Table κ := swizzleMethod H (swizzleMethod H T theClass .resume) theClass .suspend

def originalAFResumeIMP : IMP κ := .af .resume

/-- The class has a `resume` that is not the one above it and not `af_resume`. -/
def needsSwizzling (H : Hierarchy κ) (T : Table κ) (currentClass : κ) : Bool :=
  let classResumeIMP := T.lookup H currentClass (.own .resume)
  let superclassResumeIMP :=
    (H.superclass currentClass).bind fun superClass => T.lookup H superClass (.own .resume)
  classResumeIMP != superclassResumeIMP && some originalAFResumeIMP != classResumeIMP

/-- The loop of `load` over a class and those above it, while they answer `resume`. -/
def loadLoop (H : Hierarchy κ) : List κ → Table κ → Table κ
  | [], T => T
  | currentClass :: above, T =>
      if (getInstanceMethod H T currentClass (.own .resume)).isSome then
        loadLoop H above
          (if needsSwizzling H T currentClass
            then swizzleResumeAndSuspendMethodForClass H T currentClass
            else T)
      else T

def load (H : Hierarchy κ) (T : Table κ) (localDataTask : κ) : Table κ :=
  loadLoop H (H.ancestry localDataTask) T

/-! ### What the rewritten classes hold -/

namespace TaskClasses

variable (P : TaskClasses κ)

/-- The class whose code a message `p` to a task of class `c` runs. -/
def implementer (p : Primitive) (c : κ) : Option κ :=
  (P.ancestry c).find? fun d => (P.code d p).isSome

def withResume (cs : List κ) : List κ := cs.filter fun c => (P.code c .resume).isSome

/-- The classes that loading rewrites, in order. -/
def swizzled (localDataTask : κ) : List κ := P.withResume (P.ancestry localDataTask)

/-- The first of the rewritten classes whose code for `p` stands in `k`. -/
def holder (p : Primitive) (D : List κ) (k : κ) : Option κ :=
  D.find? fun d => P.implementer p d = some k

/-- What a rewritten class has under the `af_` selector: the code that its own selector found, if no
    class before it has taken that. -/
def held (p : Primitive) (D : List κ) (d : κ) : IMP κ :=
  match P.implementer p d with
  | some k => if P.holder p D k = some d then .compiled k p else .af p
  | none => .af p

/-- The table after the classes `D` are rewritten, for one of the two methods. -/
structure Exchanged (p : Primitive) (D : List κ) (T : Table κ) : Prop where
  own : ∀ k, T k (.own p) =
    if (P.holder p D k).isSome then some (.af p) else P.methods k (.own p)
  af : ∀ d, T d (.af p) = if d ∈ D then some (P.held p D d) else none

variable {P} {p q : Primitive} {c d k : κ} {D : List κ} {T : Table κ}

omit [DecidableEq κ] in
theorem implementer_mem (h : P.implementer p c = some k) : k ∈ P.ancestry c :=
  List.mem_of_find?_eq_some h

omit [DecidableEq κ] in
theorem implementer_code (h : P.implementer p c = some k) : (P.code k p).isSome :=
  List.find?_some (p := fun d => (P.code d p).isSome) h

omit [DecidableEq κ] in
theorem implementer_self (h : (P.code c p).isSome) : P.implementer p c = some c := by
  obtain ⟨cs, hcs⟩ := P.ancestry_eq_cons c
  simp [implementer, hcs, h]

omit [DecidableEq κ] in
/-- Two classes that find their code in each other are one. -/
theorem implementer_antisymm (h : P.implementer p c = some k) (hc : c ∈ P.ancestry k) : c = k := by
  by_contra hne
  exact P.not_mem_ancestry (implementer_mem h) (Ne.symm hne) hc

theorem holder_some (h : P.holder p D k = some d) : d ∈ D ∧ P.implementer p d = some k :=
  ⟨List.mem_of_find?_eq_some h, of_decide_eq_true
    (List.find?_some (p := fun d => decide (P.implementer p d = some k)) h)⟩

theorem held_of_holder (h : P.holder p D k = some d) : P.held p D d = .compiled k p := by
  rw [held, (holder_some h).2]
  simp [h]

/-- The `af_` selector of a class holds `af_` itself, or the code of a class that it is the holder
    of. -/
theorem held_cases (p : Primitive) (D : List κ) (d : κ) :
    P.held p D d = .af p ∨ ∃ k, P.held p D d = .compiled k p ∧ P.holder p D k = some d := by
  rw [held]
  cases hd : P.implementer p d with
  | none => exact .inl rfl
  | some k =>
    by_cases hold : P.holder p D k = some d
    · exact .inr ⟨k, by simp [hold], hold⟩
    · exact .inl (by simp [hold])

theorem exchanged_nil : P.Exchanged p [] P.methods := by
  constructor
  · intro k
    rw [holder, List.find?_nil, Option.isSome_none, if_neg Bool.false_ne_true]
  · intro d
    rw [if_neg List.not_mem_nil]
    rfl

namespace Exchanged

/-- The exchanges leave a method where one was, and put none where there was none. -/
theorem own_isSome (h : P.Exchanged p D T) (k : κ) :
    (T k (.own p)).isSome = (P.code k p).isSome := by
  rw [h.own k]
  cases hold : P.holder p D k with
  | none => simp [methods]
  | some d => simp [implementer_code (holder_some hold).2]

theorem getInstanceMethod_own (h : P.Exchanged p D T) (c : κ) :
    getInstanceMethod P.toHierarchy T c (.own p) =
      (P.implementer p c).map fun k => ⟨k, .own p⟩ := by
  rw [getInstanceMethod, implementer]
  exact congrArg (Option.map _) (congrArg (fun f => List.find? f _)
    (funext fun d => h.own_isSome d))

theorem getInstanceMethod_af (h : P.Exchanged p D T) (c : κ) :
    getInstanceMethod P.toHierarchy T c (.af p) =
      ((P.ancestry c).find? fun d => d ∈ D).map fun d => ⟨d, .af p⟩ := by
  rw [getInstanceMethod]
  refine congrArg (Option.map _) (congrArg (fun f => List.find? f _) (funext fun d => ?_))
  rw [h.af d]
  by_cases hd : d ∈ D <;> simp [hd]

theorem lookup_own (h : P.Exchanged p D T) (hk : P.implementer p c = some k) :
    T.lookup P.toHierarchy c (.own p) = T k (.own p) := by
  have hfind := h.getInstanceMethod_own c
  rw [hk] at hfind
  exact (lookup_of_getInstanceMethod hfind).2.2.2

theorem lookup_own_none (h : P.Exchanged p D T) (hc : P.implementer p c = none) :
    T.lookup P.toHierarchy c (.own p) = none :=
  lookup_eq_none (by rw [h.getInstanceMethod_own c, hc, Option.map_none])

theorem lookup_af_none (h : P.Exchanged p D T) (hc : (P.ancestry c).find? (· ∈ D) = none) :
    T.lookup P.toHierarchy c (.af p) = none :=
  lookup_eq_none (by rw [h.getInstanceMethod_af c, hc, Option.map_none])

theorem lookup_af (h : P.Exchanged p D T) (hd : (P.ancestry c).find? (· ∈ D) = some d) :
    T.lookup P.toHierarchy c (.af p) = some (P.held p D d) := by
  have hfind := h.getInstanceMethod_af c
  rw [hd] at hfind
  rw [(lookup_of_getInstanceMethod hfind).2.2.2, h.af d, if_pos]
  exact of_decide_eq_true (List.find?_some (p := fun d => decide (d ∈ D)) hd)

end Exchanged

/-! ### One class rewritten -/

theorem holder_append (p : Primitive) (D : List κ) (c k : κ) :
    P.holder p (D ++ [c]) k =
      (P.holder p D k).or (if P.implementer p c = some k then some c else none) := by
  rw [holder, List.find?_append, ← holder]
  by_cases hc : P.implementer p c = some k <;> simp [hc]

/-- A class that comes later does not take what an earlier one holds. -/
theorem held_append (hd : d ∈ D) : P.held p (D ++ [c]) d = P.held p D d := by
  rw [held, held]
  cases hk : P.implementer p d with
  | none => rfl
  | some k =>
    have hsome : (P.holder p D k).isSome := List.find?_isSome.mpr ⟨d, hd, by simpa using hk⟩
    obtain ⟨e, he⟩ := Option.isSome_iff_exists.mp hsome
    simp only [holder_append, he, Option.some_or]

/-- The class that comes last takes its code if none has. -/
theorem held_last (hc : c ∉ D) (hk : P.implementer p c = some k) :
    some (P.held p (D ++ [c]) c) =
      if (P.holder p D k).isSome then some (.af p) else P.methods k (.own p) := by
  obtain ⟨code, hcode⟩ := Option.isSome_iff_exists.mp (implementer_code hk)
  rw [held, hk]
  cases hold : P.holder p D k with
  | none => simp [holder_append, hold, hk, methods, hcode]
  | some e =>
    have hec : e ≠ c := fun h => hc (h ▸ (holder_some hold).1)
    simp [holder_append, hold, hec]

/-- What rewriting a class does: nothing when it is done already; it gets `af_` beside what it
    finds, and the two exchange where they stand. -/
theorem swizzleMethod_cases (H : Hierarchy κ) (T : Table κ) (c : κ) (p : Primitive) :
    (T c (.af p)).isSome ∧ swizzleMethod H T c p = T ∨
    T c (.af p) = none ∧ getInstanceMethod H T c (.own p) = none ∧
      swizzleMethod H T c p = T.replaceMethod c (.af p) (some (.af p)) ∨
    T c (.af p) = none ∧ ∃ k, getInstanceMethod H T c (.own p) = some ⟨k, .own p⟩ ∧
      ∀ d s, swizzleMethod H T c p d s =
        if d = c ∧ s = .af p then T k (.own p)
        else if d = k ∧ s = .own p then some (.af p) else T d s := by
  have hne : (Selector.own p) ≠ .af p := Selector.noConfusion
  cases haf : T c (.af p) with
  | some i => exact .inl ⟨rfl, by simp [swizzleMethod, af_addMethod, addMethod, haf]⟩
  | none =>
    have hadd : af_addMethod T c (.af p) (.af p) =
        some (T.replaceMethod c (.af p) (some (.af p))) := by
      simp [af_addMethod, addMethod, haf]
    have hown : (T.replaceMethod c (.af p) (some (.af p))) c (.af p) = some (.af p) := by
      simp [replaceMethod]
    rw [swizzleMethod, hadd]
    simp only [af_swizzleSelector, getInstanceMethod_replaceMethod hne,
      getInstanceMethod_own hown]
    cases hfind : getInstanceMethod H T c (.own p) with
    | none => exact .inr (.inl ⟨trivial, rfl, rfl⟩)
    | some m =>
      obtain ⟨k, t⟩ := m
      obtain ⟨rfl, -, hk, -⟩ := lookup_of_getInstanceMethod hfind
      obtain ⟨i, hi⟩ := Option.isSome_iff_exists.mp hk
      refine .inr (.inr ⟨trivial, k, rfl, fun d s => ?_⟩)
      have hi' : (T.replaceMethod c (.af p) (some (.af p))) k (.own p) = some i := by
        simp [replaceMethod, hi]
      simp only [exchangeImplementations_entry hi' hown, hi]
      by_cases hc : d = c ∧ s = .af p
      · simp [hc]
      · simp [hc, replaceMethod]

/-- The other method of the class and its `af_` method are not touched. -/
theorem swizzleMethod_other (hqp : q ≠ p) (H : Hierarchy κ) (T : Table κ) (c d : κ) :
    swizzleMethod H T c p d (.own q) = T d (.own q) ∧
      swizzleMethod H T c p d (.af q) = T d (.af q) := by
  rcases swizzleMethod_cases H T c p with ⟨-, h⟩ | ⟨-, -, h⟩ | ⟨-, k, -, h⟩
  · rw [h]
    exact ⟨rfl, rfl⟩
  · simp [h, replaceMethod, hqp]
  · simp [h, hqp]

namespace Exchanged

theorem other (h : P.Exchanged q D T) (hqp : q ≠ p) (c : κ) :
    P.Exchanged q D (swizzleMethod P.toHierarchy T c p) where
  own k := by rw [(swizzleMethod_other hqp P.toHierarchy T c k).1, h.own k]
  af d := by rw [(swizzleMethod_other hqp P.toHierarchy T c d).2, h.af d]

/-- Rewriting one more class. -/
theorem swizzle (h : P.Exchanged p D T) (hc : c ∉ D) :
    P.Exchanged p (D ++ [c]) (swizzleMethod P.toHierarchy T c p) := by
  have haf : T c (.af p) = none := by rw [h.af c, if_neg hc]
  have hfind := h.getInstanceMethod_own c
  rcases swizzleMethod_cases P.toHierarchy T c p with ⟨hdone, -⟩ | ⟨-, hnone, hT⟩ | ⟨-, k, hk, hT⟩
  · simp [haf] at hdone
  · -- nothing to exchange with
    have hc' : P.implementer p c = none := by simpa [hfind] using hnone
    constructor
    · intro k
      rw [hT, holder_append, hc']
      simp [replaceMethod, h.own k]
    · intro d
      rw [hT]
      by_cases hdc : d = c
      · subst hdc
        simp [replaceMethod, held, hc']
      · by_cases hd : d ∈ D
        · simp [replaceMethod, hdc, h.af d, hd, held_append hd]
        · simp [replaceMethod, hdc, h.af d, hd]
  · have hk' : P.implementer p c = some k := by
      rw [hfind] at hk
      simpa using hk
    constructor
    · intro e
      rw [hT, holder_append, hk']
      by_cases hek : e = k
      · subst hek
        cases hold : P.holder p D e <;> simp
      · have hke : k ≠ e := Ne.symm hek
        simp [hek, hke, h.own e]
    · intro d
      rw [hT]
      by_cases hdc : d = c
      · subst hdc
        simp [held_last hc hk', h.own k]
      · by_cases hd : d ∈ D
        · simp [hdc, h.af d, hd, held_append hd]
        · simp [hdc, h.af d, hd]

end Exchanged

/-! ### The climb -/

omit [DecidableEq κ] in
theorem withResume_append (cs ds : List κ) :
    P.withResume (cs ++ ds) = P.withResume cs ++ P.withResume ds := List.filter_append ..

/-- The rewritten classes have `resume` of their own, so each finds itself. -/
theorem holder_resume (hD : ∀ d ∈ D, (P.code d .resume).isSome)
    (hc : P.holder .resume D c = some d) : d = c := by
  obtain ⟨hd, hfind⟩ := holder_some hc
  rw [implementer_self (hD d hd)] at hfind
  exact Option.some.inj hfind

theorem needsSwizzling_inherited {H : Hierarchy κ} (h : T c (.own .resume) = none) :
    needsSwizzling H T c = false := by
  rw [needsSwizzling, lookup_above h]
  simp

theorem needsSwizzling_done {H : Hierarchy κ} (h : T c (.own .resume) = some (.af .resume)) :
    needsSwizzling H T c = false := by
  simp [needsSwizzling, lookup_own h, originalAFResumeIMP]

/-- On the way up a class is rewritten when it has `resume` of its own. -/
theorem needsSwizzling_iff (h : P.Exchanged .resume D T) (hc : c ∉ D)
    (hD : ∀ d ∈ D, (P.code d .resume).isSome) :
    needsSwizzling P.toHierarchy T c = true ↔ (P.code c .resume).isSome := by
  have hisSome := h.own_isSome c
  cases hcode : P.code c .resume with
  | none =>
    rw [hcode] at hisSome
    rw [needsSwizzling_inherited (by simpa using hisSome)]
    simp
  | some code =>
    have hnone : P.holder .resume D c = none := by
      cases hold : P.holder .resume D c with
      | none => rfl
      | some d => exact absurd (holder_resume hD hold ▸ (holder_some hold).1) hc
    have hown : T c (.own .resume) = some (.compiled c .resume) := by
      rw [h.own c, hnone, if_neg (by simp), methods, hcode, Option.map_some]
    have habove : (P.superclass c).bind (fun e => T.lookup P.toHierarchy e (.own .resume)) ≠
        some (.compiled c .resume) := by
      intro heq
      obtain ⟨e, hs, he⟩ := Option.bind_eq_some_iff.mp heq
      -- only the class itself has this implementation, and it is not above itself
      cases hk : P.implementer .resume e with
      | none =>
        rw [h.lookup_own_none hk] at he
        cases he
      | some k =>
        rw [h.lookup_own hk, h.own k] at he
        have hkc : k = c := by
          by_cases hold : (P.holder .resume D k).isSome
          · simp [hold] at he
          · obtain ⟨code', hcode'⟩ := Option.isSome_iff_exists.mp (implementer_code hk)
            simpa [hold, methods, hcode'] using he
        exact P.not_mem_ancestry_above (P.ancestry_super hs) (P.self_mem_ancestry e)
          (hkc ▸ implementer_mem hk)
    simp [needsSwizzling, lookup_own hown, originalAFResumeIMP, Ne.symm habove]

/-- One round of the loop. -/
theorem round_exchanged (hT : ∀ p, P.Exchanged p D T) (hc : c ∉ D)
    (hD : ∀ d ∈ D, (P.code d .resume).isSome) (p : Primitive) :
    P.Exchanged p (D ++ P.withResume [c])
      (if needsSwizzling P.toHierarchy T c
        then swizzleResumeAndSuspendMethodForClass P.toHierarchy T c
        else T) := by
  by_cases hcode : (P.code c .resume).isSome
  · rw [if_pos ((needsSwizzling_iff (hT .resume) hc hD).mpr hcode)]
    have hwith : P.withResume [c] = [c] := by simp [withResume, hcode]
    rw [hwith]
    cases p with
    | resume => exact ((hT .resume).swizzle hc).other (by decide) c
    | suspend => exact ((hT .suspend).other (by decide) c).swizzle hc
  · rw [if_neg (fun h => hcode ((needsSwizzling_iff (hT .resume) hc hD).mp h))]
    have hwith : P.withResume [c] = [] := by simp [withResume, hcode]
    rw [hwith, List.append_nil]
    exact hT p

/-- The loop, from any class of the way up. -/
theorem loadLoop_exchanged {localDataTask : κ} : ∀ (above done : List κ) (T : Table κ),
    done ++ above = P.ancestry localDataTask →
    (∀ p, P.Exchanged p (P.withResume done) T) →
    ∀ p, P.Exchanged p (P.withResume (done ++ above)) (loadLoop P.toHierarchy above T)
  | [], done, T, _, hT => by simpa [loadLoop] using hT
  | c :: above, done, T, hup, hT => by
      rw [loadLoop, (hT .resume).getInstanceMethod_own c, Option.isSome_map]
      cases hfind : P.implementer .resume c with
      | none =>
        -- no class from here on answers, so none has a method of its own
        have hnone : P.withResume (c :: above) = [] := by
          rw [withResume, List.filter_eq_nil_iff, ← P.ancestry_of_append done hup.symm]
          exact List.find?_eq_none.mp hfind
        rw [withResume_append, hnone, List.append_nil]
        simpa using hT
      | some k =>
        have hc : c ∉ P.withResume done := fun hc =>
          P.not_mem_below hup.symm (List.mem_filter.mp hc).1
        have hround := round_exchanged hT hc fun d hd => (List.mem_filter.mp hd).2
        rw [← withResume_append] at hround
        rw [List.append_cons] at hup ⊢
        exact loadLoop_exchanged above (done ++ [c]) _ hup hround

/-- What loading leaves in the table of the platform's classes. -/
theorem load_exchanged (P : TaskClasses κ) (localDataTask : κ) (p : Primitive) :
    P.Exchanged p (P.swizzled localDataTask) (load P.toHierarchy P.methods localDataTask) :=
  loadLoop_exchanged (P.ancestry localDataTask) [] P.methods rfl (fun _ => exchanged_nil) p

theorem loadLoop_settled {H : Hierarchy κ} : ∀ cs : List κ,
    (∀ c ∈ cs, needsSwizzling H T c = false) → loadLoop H cs T = T
  | [], _ => rfl
  | c :: cs, h => by
      rw [loadLoop, h c (by simp), if_neg Bool.false_ne_true,
        loadLoop_settled cs fun d hd => h d (by simp [hd]), ite_self]

/-- Loading once more changes nothing: a class that was rewritten answers with `af_resume`. -/
theorem load_load (P : TaskClasses κ) (localDataTask : κ) :
    load P.toHierarchy (load P.toHierarchy P.methods localDataTask) localDataTask =
      load P.toHierarchy P.methods localDataTask := by
  have hT := load_exchanged P localDataTask .resume
  refine loadLoop_settled _ fun c hc => ?_
  have hisSome := hT.own_isSome c
  cases hcode : P.code c .resume with
  | none =>
    rw [hcode] at hisSome
    exact needsSwizzling_inherited (by simpa using hisSome)
  | some code =>
    have hmem : c ∈ P.swizzled localDataTask := List.mem_filter.mpr ⟨hc, by simp [hcode]⟩
    have hself : P.implementer .resume c = some c := implementer_self (by rw [hcode]; rfl)
    have hold : (P.holder .resume (P.swizzled localDataTask) c).isSome :=
      List.find?_isSome.mpr ⟨c, hmem, by simpa using hself⟩
    exact needsSwizzling_done (by rw [hT.own c, if_pos hold])

end TaskClasses

end LeYiDai.TaskSwizzling
