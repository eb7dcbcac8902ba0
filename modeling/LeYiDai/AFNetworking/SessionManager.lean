import LeYiDai.Lib.Machine
import LeYiDai.Util.FailureMessage
import Mathlib.Data.List.Perm.Basic
import Mathlib.Logic.Function.Basic

/-! AFURLSessionManager: from the bytes of many tasks at once to one call of each completion
    handler. The delegate of a task gathers its data; when the task ends, the delegate goes and the
    response waits on the processing queue, which takes its blocks in any order, while an error goes
    straight to the completion queue.

        dataTaskWithRequest ──▶ delegate ──▶ didReceiveData ..
                                   └── didCompleteWithError ──▶ processing ──▶ completion ──▶ handler -/

namespace LeYiDai.SessionManager

open Failure

variable {β : Type*}

/-! ### The manager -/

/-- The delegate of a data task or an upload task. -/
structure AFURLSessionManagerTaskDelegate (β : Type*) where
  mutableData : Option NSData
  completionHandler : Option β

/-- A block on the processing queue: a response to be read. -/
structure Processing (β : Type*) where
  completionHandler : Option β
  response : HTTPURLResponse
  data : Option NSData

/-- A block on the completion queue: a handler and what it is called with. -/
structure Completed (β : Type*) where
  completionHandler : Option β
  responseObject : Option Json
  error : Option NSError

/-- How the session ends a task. -/
inductive Ending where
  | finished (response : HTTPURLResponse)
  | failed (error : TransportError)

/-- The task delegates stand under the identifiers of their tasks, which the session counts up. -/
structure AFURLSessionManager (β : Type*) where
  nextTaskIdentifier : ℕ
  taskDelegates : ℕ → Option (AFURLSessionManagerTaskDelegate β)
  processingQueue : List (Processing β)
  completionQueue : List (Completed β)

namespace AFURLSessionManager

def init : AFURLSessionManager β :=
  { nextTaskIdentifier := 0
    taskDelegates := fun _ => none
    processingQueue := []
    completionQueue := [] }

def delegateForTask (task : ℕ) (m : AFURLSessionManager β) :
    Option (AFURLSessionManagerTaskDelegate β) := m.taskDelegates task

def setDelegate (delegate : AFURLSessionManagerTaskDelegate β) (task : ℕ)
    (m : AFURLSessionManager β) : AFURLSessionManager β :=
  { m with taskDelegates := Function.update m.taskDelegates task (some delegate) }

def removeDelegateForTask (task : ℕ) (m : AFURLSessionManager β) : AFURLSessionManager β :=
  { m with taskDelegates := Function.update m.taskDelegates task none }

/-- `dataTaskWithRequest:..completionHandler:` and `uploadTaskWithStreamedRequest:..`: a task of the
    session, and a delegate for it. -/
def dataTaskWithRequest (completionHandler : Option β) (m : AFURLSessionManager β) :
    AFURLSessionManager β :=
  setDelegate { mutableData := some [], completionHandler } m.nextTaskIdentifier
    { m with nextTaskIdentifier := m.nextTaskIdentifier + 1 }

/-- `URLSession:dataTask:didReceiveData:`. -/
def didReceiveData (task : ℕ) (data : NSData) (m : AFURLSessionManager β) : AFURLSessionManager β :=
  match m.delegateForTask task with
  | some delegate =>
    m.setDelegate { delegate with mutableData := delegate.mutableData.map (· ++ data) } task
  | none => m

/-- `URLSession:task:didCompleteWithError:` of the delegate: what it puts on which queue. -/
def dispatch (delegate : AFURLSessionManagerTaskDelegate β) (ending : Ending)
    (m : AFURLSessionManager β) : AFURLSessionManager β :=
  match ending with
  | .failed error =>
    { m with
      completionQueue := m.completionQueue ++
        [{ completionHandler := delegate.completionHandler
           responseObject := none
           error := some (.error NSURLErrorDomain error.code) }] }
  | .finished response =>
    { m with
      processingQueue := m.processingQueue ++
        [{ completionHandler := delegate.completionHandler
           response
           data := delegate.mutableData }] }

/-- `URLSession:task:didCompleteWithError:`. -/
def didComplete (task : ℕ) (ending : Ending) (m : AFURLSessionManager β) : AFURLSessionManager β :=
  match m.delegateForTask task with
  | some delegate => (m.dispatch delegate ending).removeDelegateForTask task
  | none => m

end AFURLSessionManager

/-- What the block on the processing queue makes of a response. -/
def Processing.read (J : JSONSerialization) (p : Processing β) : Completed β :=
  let (responseObject, error) := responseObjectForResponse J p.response (p.data.getD [])
  { completionHandler := p.completionHandler, responseObject, error }

open AFURLSessionManager

/-- What the app, the session and the queues do. The events of the session may name any task. -/
inductive Event (β : Type*) where
  | dataTaskWithRequest (completionHandler : Option β)
  | didReceiveData (task : ℕ) (data : NSData)
  | didComplete (task : ℕ) (ending : Ending)
  | process (k : ℕ)
  | complete

/-- One event; the blocks that the completion queue runs come out. -/
def machine (J : JSONSerialization) :
    Machine (AFURLSessionManager β) (Event β) (Completed β) where
  step m
    | .dataTaskWithRequest completionHandler => some (m.dataTaskWithRequest completionHandler, [])
    | .didReceiveData task data => some (m.didReceiveData task data, [])
    | .didComplete task ending => some (m.didComplete task ending, [])
    | .process k =>
      match m.processingQueue[k]? with
      | some p =>
        some ({ m with
          processingQueue := m.processingQueue.eraseIdx k
          completionQueue := m.completionQueue ++ [p.read J] }, [])
      | none => some (m, [])
    | .complete =>
      match m.completionQueue with
      | c :: rest => some ({ m with completionQueue := rest }, [c])
      | [] => some (m, [])

/-! ### One task at a time -/

/-- A task by itself: it has received some bytes, or it has ended. -/
inductive Task (β : Type*) where
  | running (completionHandler : Option β) (received : NSData)
  | completed (c : Completed β)

namespace Task

def receive (data : NSData) : Task β → Task β
  | running completionHandler received => running completionHandler (received ++ data)
  | completed c => completed c

/-- How a task completes that ends with the given bytes received. -/
def completion (received : NSData) : Ending → Completion
  | .finished response => .response response received
  | .failed error => .transport error

def finish (J : JSONSerialization) (ending : Ending) : Task β → Task β
  | running completionHandler received =>
    completed
      { completionHandler
        responseObject := (Failure.didComplete J (completion received ending)).1
        error := (Failure.didComplete J (completion received ending)).2 }
  | completed c => completed c

def completed? : Task β → Option (Completed β)
  | running _ _ => none
  | completed c => some c

/-- The delegate that a task has. -/
def delegate? : Task β → Option (AFURLSessionManagerTaskDelegate β)
  | running completionHandler received => some { mutableData := some received, completionHandler }
  | completed _ => none

end Task

/-- All tasks, in the order of their identifiers: each takes the events that name it. -/
def next (J : JSONSerialization) (tasks : List (Task β)) : Event β → List (Task β)
  | .dataTaskWithRequest completionHandler => tasks ++ [.running completionHandler []]
  | .didReceiveData task data => tasks.modify task (Task.receive data)
  | .didComplete task ending => tasks.modify task (Task.finish J ending)
  | .process _ | .complete => tasks

/-- The manager has a delegate for every task that is running, and every task that has ended is
    accounted for once: its handler has been called, or waits on one of the queues. -/
structure Accounted (J : JSONSerialization) (m : AFURLSessionManager β) (tasks : List (Task β))
    (called : List (Completed β)) : Prop where
  count : m.nextTaskIdentifier = tasks.length
  delegates : ∀ task, m.delegateForTask task = tasks[task]?.bind Task.delegate?
  once : (called ++ (m.completionQueue ++ m.processingQueue.map (·.read J))).Perm
    (tasks.filterMap Task.completed?)

variable {J : JSONSerialization} {m : AFURLSessionManager β} {tasks : List (Task β)}
  {called : List (Completed β)}

theorem delegateForTask_setDelegate (delegate : AFURLSessionManagerTaskDelegate β) (task i : ℕ) :
    (m.setDelegate delegate task).delegateForTask i =
      if task = i then some delegate else m.delegateForTask i := by
  rw [delegateForTask, setDelegate]
  dsimp only
  split_ifs with hi
  · rw [← hi, Function.update_self]
  · rw [Function.update_of_ne (Ne.symm hi)]
    rfl

theorem delegateForTask_removeDelegateForTask (task i : ℕ) :
    (m.removeDelegateForTask task).delegateForTask i =
      if task = i then none else m.delegateForTask i := by
  rw [delegateForTask, removeDelegateForTask]
  dsimp only
  split_ifs with hi
  · rw [← hi, Function.update_self]
  · rw [Function.update_of_ne (Ne.symm hi)]
    rfl

/-! ### Tasks that have ended -/

/-- Bytes change nothing about the tasks that have ended. -/
theorem completed_receive (data : NSData) : ∀ (tasks : List (Task β)) (task : ℕ),
    (tasks.modify task (Task.receive data)).filterMap Task.completed? =
      tasks.filterMap Task.completed?
  | [], task => by rw [List.modify_nil]
  | t :: ts, 0 => by
      rw [List.modify_zero_cons, List.filterMap_cons, List.filterMap_cons]
      cases t <;> rfl
  | t :: ts, task + 1 => by
      rw [List.modify_succ_cons, List.filterMap_cons, List.filterMap_cons,
        completed_receive data ts task]

/-- A running task that ends is one more. -/
theorem completed_finish (ending : Ending) {completionHandler : Option β} {received : NSData} :
    ∀ {tasks : List (Task β)} {task : ℕ},
      tasks[task]? = some (.running completionHandler received) →
      ((tasks.modify task (Task.finish J ending)).filterMap Task.completed?).Perm
        (tasks.filterMap Task.completed? ++
          ((Task.running completionHandler received).finish J ending).completed?.toList)
  | [], _, h => by cases h
  | t :: ts, 0, h => by
      obtain rfl : t = .running completionHandler received := Option.some.inj h
      rw [List.modify_zero_cons, List.filterMap_cons, List.filterMap_cons]
      exact (List.perm_append_singleton _ _).symm
  | t :: ts, task + 1, h => by
      have ht : ts[task]? = some (.running completionHandler received) := h
      have ih := completed_finish ending ht
      rw [List.modify_succ_cons, List.filterMap_cons, List.filterMap_cons]
      cases t.completed? with
      | none => exact ih
      | some c => exact ih.cons c

theorem getElem?_receive (data : NSData) (tasks : List (Task β)) (task i : ℕ) :
    (tasks.modify task (Task.receive data))[i]?.bind Task.delegate? =
      if task = i then (tasks[i]?.bind Task.delegate?).map fun d =>
        { d with mutableData := d.mutableData.map (· ++ data) }
      else tasks[i]?.bind Task.delegate? := by
  rw [List.getElem?_modify]
  cases tasks[i]? with
  | none => simp
  | some t => cases t <;> split_ifs <;> rfl

theorem getElem?_finish (ending : Ending) (tasks : List (Task β)) (task i : ℕ) :
    (tasks.modify task (Task.finish J ending))[i]?.bind Task.delegate? =
      if task = i then none else tasks[i]?.bind Task.delegate? := by
  rw [List.getElem?_modify]
  cases tasks[i]? with
  | none => simp
  | some t => cases t <;> split_ifs <;> rfl

/-! ### One step -/

theorem Accounted.dataTaskWithRequest (h : Accounted J m tasks called)
    (completionHandler : Option β) : Accounted J (m.dataTaskWithRequest completionHandler)
      (tasks ++ [.running completionHandler []]) called := by
  refine ⟨?_, fun task => ?_, ?_⟩
  · rw [List.length_append, ← h.count]
    rfl
  · have hdelegates : ∀ n,
        ({ m with nextTaskIdentifier := n } : AFURLSessionManager β).delegateForTask task =
          tasks[task]?.bind Task.delegate? := fun _ => h.delegates task
    rw [AFURLSessionManager.dataTaskWithRequest, delegateForTask_setDelegate, hdelegates, h.count]
    split_ifs with hlast
    · rw [← hlast, List.getElem?_concat_length]
      rfl
    · rw [List.getElem?_append]
      split_ifs with hlt
      · rfl
      · rw [List.getElem?_eq_none (by omega), List.getElem?_eq_none]
        simp only [List.length_singleton]
        omega
  · have hnone : [Task.running completionHandler []].filterMap Task.completed? = [] := rfl
    rw [List.filterMap_append, hnone, List.append_nil]
    exact h.once

theorem Accounted.didReceiveData (h : Accounted J m tasks called) (task : ℕ) (data : NSData) :
    Accounted J (m.didReceiveData task data) (tasks.modify task (Task.receive data)) called := by
  rw [AFURLSessionManager.didReceiveData]
  cases hdelegate : m.delegateForTask task with
  | none =>
    refine ⟨by rw [List.length_modify, h.count], fun i => ?_,
      by rw [completed_receive]; exact h.once⟩
    rw [getElem?_receive, ← h.delegates]
    split_ifs with hi
    · rw [← hi, hdelegate, Option.map_none]
    · rfl
  | some delegate =>
    refine ⟨by rw [List.length_modify, ← h.count]; rfl, fun i => ?_,
      by rw [completed_receive]; exact h.once⟩
    dsimp only
    rw [getElem?_receive, ← h.delegates, delegateForTask_setDelegate]
    split_ifs with hi
    · rw [← hi, hdelegate, Option.map_some]
    · rfl

/-- What a delegate dispatches is what its task comes to. -/
theorem Accounted.once_dispatch (h : Accounted J m tasks called) (ending : Ending)
    (completionHandler : Option β) (received : NSData) :
    let m' := m.dispatch { mutableData := some received, completionHandler } ending
    (called ++ (m'.completionQueue ++ m'.processingQueue.map (·.read J))).Perm
      (tasks.filterMap Task.completed? ++
        ((Task.running completionHandler received).finish J ending).completed?.toList) := by
  intro m'
  cases ending with
  | failed error =>
    have hcalled : ((Task.running completionHandler received).finish J
        (.failed error)).completed?.toList = [⟨completionHandler, none,
          some (.error NSURLErrorDomain error.code)⟩] := rfl
    have hqueues : m'.completionQueue ++ m'.processingQueue.map (·.read J) =
        m.completionQueue ++ [⟨completionHandler, none,
          some (.error NSURLErrorDomain error.code)⟩] ++ m.processingQueue.map (·.read J) := rfl
    -- the error overtakes the responses that are still to be read
    rw [hqueues, hcalled, List.append_assoc m.completionQueue]
    have hovertakes : ∀ c : Completed β, ([c] ++ m.processingQueue.map (Processing.read J)).Perm
        (m.processingQueue.map (Processing.read J) ++ [c]) := fun _ => List.perm_append_comm
    refine (((hovertakes _).append_left m.completionQueue).append_left called).trans ?_
    rw [← List.append_assoc m.completionQueue, ← List.append_assoc called]
    exact h.once.append_right _
  | finished response =>
    have hqueues : m'.completionQueue ++ m'.processingQueue.map (·.read J) =
        m.completionQueue ++ m.processingQueue.map (·.read J) ++
          ((Task.running completionHandler received).finish J
            (.finished response)).completed?.toList := by
      rw [List.append_assoc]
      exact congrArg (m.completionQueue ++ ·) List.map_append
    rw [hqueues, ← List.append_assoc called]
    exact h.once.append_right _

theorem modify_finish_of_none {task : ℕ} (ending : Ending)
    (h : tasks[task]?.bind Task.delegate? = none) :
    tasks.modify task (Task.finish J ending) = tasks := by
  refine List.ext_getElem? fun i => ?_
  rw [List.getElem?_modify]
  rcases eq_or_ne task i with rfl | hne
  · cases ht : tasks[task]? with
    | none => rfl
    | some t =>
      rw [ht] at h
      cases t with
      | running completionHandler received => cases h
      | completed c => simp [Task.finish]
  · simp [hne]

theorem Accounted.didComplete (h : Accounted J m tasks called) (task : ℕ) (ending : Ending) :
    Accounted J (m.didComplete task ending) (tasks.modify task (Task.finish J ending)) called := by
  have hdelegates := h.delegates task
  rw [AFURLSessionManager.didComplete]
  cases hdelegate : m.delegateForTask task with
  | none =>
    rw [hdelegate] at hdelegates
    rw [modify_finish_of_none ending hdelegates.symm]
    exact h
  | some delegate =>
    rw [hdelegate] at hdelegates
    obtain ⟨t, ht, hrunning⟩ := Option.bind_eq_some_iff.mp hdelegates.symm
    cases t with
    | completed c => cases hrunning
    | running completionHandler received =>
      cases hrunning
      refine ⟨?_, fun i => ?_, (h.once_dispatch ending completionHandler received).trans
        (completed_finish ending ht).symm⟩
      · rw [List.length_modify, ← h.count]
        cases ending <;> rfl
      · dsimp only
        rw [getElem?_finish, delegateForTask_removeDelegateForTask, ← h.delegates]
        split_ifs
        · rfl
        · cases ending <;> rfl

theorem Accounted.process (h : Accounted J m tasks called) {k : ℕ} {p : Processing β}
    (hp : m.processingQueue[k]? = some p) :
    Accounted J { m with
      processingQueue := m.processingQueue.eraseIdx k
      completionQueue := m.completionQueue ++ [p.read J] } tasks called := by
  obtain ⟨hk, rfl⟩ := List.getElem?_eq_some_iff.mp hp
  refine ⟨h.count, h.delegates, List.Perm.trans ?_ h.once⟩
  refine List.Perm.append_left called ?_
  dsimp only
  rw [List.append_assoc]
  refine List.Perm.append_left m.completionQueue ?_
  exact (List.getElem_cons_eraseIdx_perm hk).map (·.read J)

/-- Every event keeps the account, and the block that is run goes over to those called. -/
theorem Accounted.step (h : Accounted J m tasks called) (e : Event β) :
    ∃ m' os, (machine J).step m e = some (m', os) ∧
      Accounted J m' (next J tasks e) (called ++ os) := by
  have hsame : Accounted J m tasks (called ++ []) := by rwa [List.append_nil]
  cases e with
  | dataTaskWithRequest completionHandler =>
    exact ⟨_, [], rfl, by rw [List.append_nil]; exact h.dataTaskWithRequest completionHandler⟩
  | didReceiveData task data =>
    exact ⟨_, [], rfl, by rw [List.append_nil]; exact h.didReceiveData task data⟩
  | didComplete task ending =>
    exact ⟨_, [], rfl, by rw [List.append_nil]; exact h.didComplete task ending⟩
  | process k =>
    cases hp : m.processingQueue[k]? with
    | none => exact ⟨m, [], by simp [machine, hp], hsame⟩
    | some p =>
      refine ⟨{ m with
        processingQueue := m.processingQueue.eraseIdx k
        completionQueue := m.completionQueue ++ [p.read J] }, [], by simp [machine, hp], ?_⟩
      rw [List.append_nil]
      exact h.process hp
  | complete =>
    cases hc : m.completionQueue with
    | nil => exact ⟨m, [], by simp [machine, hc], hsame⟩
    | cons c rest =>
      refine ⟨{ m with completionQueue := rest }, [c], by simp [machine, hc], h.count,
        h.delegates, ?_⟩
      have honce := h.once
      rw [hc] at honce
      rw [List.append_assoc]
      exact honce

/-! ### Runs -/

theorem accounted_init (J : JSONSerialization) :
    Accounted J (init : AFURLSessionManager β) [] [] := ⟨rfl, fun _ => rfl, .refl []⟩

/-- Whatever the order of the events and of the queues, of every task that has ended the handler is
    called once or waits to be, with what the task's own bytes come to, and no other is. -/
theorem handlers_called_once (J : JSONSerialization) (es : List (Event β)) :
    ∃ m called, (machine J).run init es = some (m, called) ∧
      (called ++ (m.completionQueue ++ m.processingQueue.map (·.read J))).Perm
        ((es.foldl (next J) []).filterMap Task.completed?) ∧
      ∀ task, m.delegateForTask task =
        (es.foldl (next J) [])[task]?.bind Task.delegate? := by
  obtain ⟨m, called, hrun, h⟩ := Machine.simulates (M := machine J) (R := Accounted J)
    (fun m tasks called e h => h.step e) es init [] [] (accounted_init J)
  exact ⟨m, called, hrun, h.once, h.delegates⟩

/-- The processing queue read to its end, from its front. -/
theorem run_process (J : JSONSerialization) : ∀ (ps : List (Processing β))
    (m : AFURLSessionManager β), m.processingQueue = ps →
      (machine J).run m (List.replicate ps.length (.process 0)) = some ({ m with
        processingQueue := []
        completionQueue := m.completionQueue ++ ps.map (·.read J) }, [])
  | [], m, h => by
      obtain ⟨n, delegates, processing, completion⟩ := m
      cases h
      simp [Machine.run]
  | p :: ps, m, h => by
      have hstep : (machine J).step m (.process 0) = some ({ m with
          processingQueue := ps
          completionQueue := m.completionQueue ++ [p.read J] }, []) := by
        simp [machine, h]
      rw [List.length_cons, List.replicate_succ, Machine.run, hstep, Option.bind_some]
      dsimp only
      rw [run_process J ps _ rfl]
      simp

/-- The completion queue run to its end. -/
theorem run_complete (J : JSONSerialization) : ∀ (cs : List (Completed β))
    (m : AFURLSessionManager β), m.completionQueue = cs →
      (machine J).run m (List.replicate cs.length .complete) =
        some ({ m with completionQueue := [] }, cs)
  | [], m, h => by
      obtain ⟨n, delegates, processing, completion⟩ := m
      cases h
      rfl
  | c :: cs, m, h => by
      have hstep : (machine J).step m .complete = some ({ m with completionQueue := cs }, [c]) := by
        simp [machine, h]
      rw [List.length_cons, List.replicate_succ, Machine.run, hstep, Option.bind_some]
      dsimp only
      rw [run_complete J cs _ rfl]
      rfl

/-- After any events the queues alone bring every task that has ended to its handler. -/
theorem queues_drain (J : JSONSerialization) (es : List (Event β)) :
    ∃ ds m called, (∀ d ∈ ds, d = .process 0 ∨ d = .complete) ∧
      (machine J).run init (es ++ ds) = some (m, called) ∧
      m.processingQueue = [] ∧ m.completionQueue = [] ∧
      called.Perm ((es.foldl (next J) []).filterMap Task.completed?) := by
  obtain ⟨m, called, hrun, h⟩ := Machine.simulates (M := machine J) (R := Accounted J)
    (fun m tasks called e h => h.step e) es init [] [] (accounted_init J)
  have hprocess := run_process J _ m rfl
  have hcomplete := run_complete J _ { m with
    processingQueue := []
    completionQueue := m.completionQueue ++ m.processingQueue.map (·.read J) } rfl
  refine ⟨_, _, _, ?_, Machine.run_append es _ hrun (Machine.run_append _ _ hprocess hcomplete),
    rfl, rfl, h.once⟩
  intro d hd
  rcases List.mem_append.mp hd with hd | hd
  · exact .inl (List.eq_of_mem_replicate hd)
  · exact .inr (List.eq_of_mem_replicate hd)

end LeYiDai.SessionManager
