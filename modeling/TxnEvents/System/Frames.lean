import TxnEvents.System.Outcomes

/-!
# What the others may do while a task waits

`Others task` is what every task can rely on: the state grows, and the notes,
the open transaction and the receipts of the task stay as they are.
-/

namespace TxnEvents

open Effects Arith Python Streams

/-- What belongs to the task is as it was. -/
structure Unmoved (task : Tid) (before after : State) : Prop where
  own : ∃ newer, after.history = newer ++ before.history ∧
    ∀ happening ∈ newer, ¬ happening.Concerns task
  openRow : after.openRow task = before.openRow task
  receipts : ∀ id, ⟨task, id⟩ ∈ after.db.receipts ↔
    ⟨task, id⟩ ∈ before.db.receipts

structure Others (task : Tid) (before after : State) : Prop extends
  Grows before after, Unmoved task before after

namespace Others

theorem refl (task : Tid) (state : State) : Others task state state where
  toGrows := Grows.refl state
  own := ⟨[], rfl, by simp⟩
  openRow := rfl
  receipts := fun _ => Iff.rfl

theorem trans {task : Tid} {first second third : State}
    (early : Others task first second) (late : Others task second third) :
    Others task first third where
  toGrows := early.toGrows.trans late.toGrows
  own := by
    obtain ⟨newer, newerEq, newerOthers⟩ := early.own
    obtain ⟨newest, newestEq, newestOthers⟩ := late.own
    refine ⟨newest ++ newer, by rw [newestEq, newerEq, List.append_assoc], ?_⟩
    intro happening member
    rcases List.mem_append.mp member with recent | old
    · exact newestOthers happening recent
    · exact newerOthers happening old
  openRow := late.openRow.trans early.openRow
  receipts := fun id => (late.receipts id).trans (early.receipts id)

end Others

/-! ## The database commands of other tasks -/

theorem openRow_rollback_of_ne {state : State} {task other : Tid}
    (different : other ≠ task) :
    (state.rollback task).openRow other = state.openRow other := by
  simp only [State.openRow, State.rollback, List.find?_filter]
  congr 1
  funext entry
  by_cases mine : entry.task = other
  · simp [mine, different]
  · simp [mine]

theorem openRow_committed_of_ne {state : State} {task other : Tid}
    (different : other ≠ task) :
    (Db.committed state task).openRow other = state.openRow other := by
  unfold Db.committed
  split
  · rfl
  · exact openRow_rollback_of_ne different

theorem receipts_committed (state : State) (task : Tid) :
    (Db.committed state task).db.receipts = state.db.receipts := by
  unfold Db.committed
  split
  · rfl
  · rfl

theorem mem_receipts_acknowledged_of_ne {state : State} {task other : Tid}
    {id : String} (different : other ≠ task) :
    ⟨other, id⟩ ∈ (Db.acknowledged state task).db.receipts ↔
      ⟨other, id⟩ ∈ state.db.receipts := by
  unfold Db.acknowledged
  split
  · exact Iff.rfl
  · simp [different]

theorem openRow_acknowledged_of_ne {state : State} {task other : Tid}
    (different : other ≠ task) :
    (Db.acknowledged state task).openRow other = state.openRow other := by
  have committed :
      (Db.committed state task).openRow other = state.openRow other :=
    openRow_committed_of_ne different
  unfold Db.acknowledged
  split
  · rfl
  · exact committed

theorem openRow_exec_of_ne {world : World} {state after : State}
    {task other : Tid} {command : Command} {choice : Choice}
    {reply : Except PyException command.Reply}
    (different : other ≠ task)
    (taken : exec world state task command choice = some (reply, after)) :
    after.openRow other = state.openRow other := by
  by_cases db : command.isDb = false
  · rw [State.openRow, db_of_not_isDb db taken, State.openRow]
  · cases command with
    | execute row =>
        have rolledBack :
            (state.rollback task).openRow other = state.openRow other :=
          openRow_rollback_of_ne different
        rcases exec_execute taken with
          ⟨_, stored, _, _, _, rfl⟩ | ⟨_, _, _, _, rfl⟩ | ⟨_, rfl⟩
        · simpa [State.openRow, Ne.symm different] using rolledBack
        · exact rolledBack
        · exact rolledBack
    | commit =>
        rcases exec_commit taken with ⟨_, rfl⟩ | ⟨_, rfl | rfl⟩
        · exact openRow_acknowledged_of_ne different
        · exact openRow_rollback_of_ne different
        · exact openRow_committed_of_ne different
    | observe note =>
        cases taken
        unfold observe
        split
        · rfl
        · rfl
    | _ => exact absurd rfl db

theorem mem_receipts_exec_of_ne {world : World} {state after : State}
    {task other : Tid} {command : Command} {choice : Choice}
    {reply : Except PyException command.Reply} {id : String}
    (different : other ≠ task)
    (taken : exec world state task command choice = some (reply, after)) :
    ⟨other, id⟩ ∈ after.db.receipts ↔ ⟨other, id⟩ ∈ state.db.receipts := by
  by_cases db : command.isDb = false
  · rw [db_of_not_isDb db taken]
  · cases command with
    | execute row =>
        rcases exec_execute taken with
          ⟨_, _, _, _, _, rfl⟩ | ⟨_, _, _, _, rfl⟩ | ⟨_, rfl⟩
        · exact Iff.rfl
        · exact Iff.rfl
        · exact Iff.rfl
    | commit =>
        rcases exec_commit taken with ⟨_, rfl⟩ | ⟨_, rfl | rfl⟩
        · exact mem_receipts_acknowledged_of_ne different
        · exact Iff.rfl
        · rw [receipts_committed]
    | observe note =>
        cases taken
        unfold observe
        split
        · simp [State.record, State.dropReceipts, different]
        · exact Iff.rfl
    | _ => exact absurd rfl db

/-- A command of one task is a step that every other task can rely on. -/
theorem exec_others {world : World} {state after : State}
    {task other : Tid} {command : Command} {choice : Choice}
    {reply : Except PyException command.Reply}
    (different : other ≠ task)
    (taken : exec world state task command choice = some (reply, after)) :
    Others other state after where
  toGrows := exec_grows taken
  own := by
    obtain ⟨newer, equality, made⟩ := exec_records taken
    refine ⟨newer, equality, ?_⟩
    intro happening member
    exact Happening.not_concerns_of_by (made happening member) different
  openRow := openRow_exec_of_ne different taken
  receipts := fun _ => mem_receipts_exec_of_ne different taken

/-! ## Events -/

theorem happen_grows {world : World} {event : Event} {state after : State}
    {tasks tasksAfter : AppTasks}
    (happened :
      happen world event state tasks = some (after, tasksAfter)) :
    Grows state after := by
  cases event with
  | ask number request =>
      simp only [happen] at happened
      split at happened
      · cases happened
        exact Grows.refl state
      · cases happened
  | hangUp number =>
      cases happened
      exact Grows.refl state
  | startWorker name =>
      simp only [happen] at happened
      split at happened
      · cases happened
        exact Grows.setLocal state _ _
      · cases happened
  | kill name =>
      cases happened
      exact Grows.of_redis_eq rfl (List.prefix_refl _) (List.suffix_cons _ _)
  | tick milliseconds =>
      cases happened
      exact {
        Grows.refl state with
        handedOut := fun _ handedOut => handedOut
        retired := fun _ retired => retired }
  | inject fields =>
      cases happened
      exact {
        Grows.refl state with
        entries := List.prefix_append _ _
        handedOut := fun _ handedOut => handedOut
        retired := fun _ retired => retired }

/-- The only event that a history records is the end of a worker. -/
theorem happen_history {world : World} {event : Event} {state after : State}
    {tasks tasksAfter : AppTasks}
    (happened :
      happen world event state tasks = some (after, tasksAfter)) :
    after.history = state.history ∨
      ∃ name, after.history = .killed name :: state.history := by
  cases event with
  | ask number request =>
      simp only [happen] at happened
      split at happened
      · cases happened
        exact Or.inl rfl
      · cases happened
  | startWorker name =>
      simp only [happen] at happened
      split at happened
      · cases happened
        exact Or.inl rfl
      · cases happened
  | kill name =>
      cases happened
      exact Or.inr ⟨name, rfl⟩
  | hangUp number =>
      cases happened
      exact Or.inl rfl
  | tick milliseconds =>
      cases happened
      exact Or.inl rfl
  | inject fields =>
      cases happened
      exact Or.inl rfl

/-- What a task did is no event. -/
theorem mem_of_happen {world : World} {event : Event} {state after : State}
    {tasks tasksAfter : AppTasks} {actor : Tid} {happening : Happening}
    (happened :
      happen world event state tasks = some (after, tasksAfter))
    (made : happening.By actor) (member : happening ∈ after.history) :
    happening ∈ state.history := by
  rcases happen_history happened with same | ⟨name, equality⟩
  · rwa [same] at member
  · rw [equality] at member
    rcases List.mem_cons.mp member with rfl | old
    · exact made.elim
    · exact old

theorem happen_deadLetters {world : World} {event : Event}
    {state after : State} {tasks tasksAfter : AppTasks}
    (happened :
      happen world event state tasks = some (after, tasksAfter)) :
    after.redis.deadLetters = state.redis.deadLetters := by
  cases event with
  | ask number request =>
      simp only [happen] at happened
      split at happened
      · cases happened
        rfl
      · cases happened
  | startWorker name =>
      simp only [happen] at happened
      split at happened
      · cases happened
        rfl
      · cases happened
  | _ =>
      cases happened
      rfl

/-- The tasks of the worker that an event kills. -/
def Event.Kills (task : Tid) : Event → Prop
  | kill name => task.process = .worker name
  | _ => False

theorem unmoved_killWorker {state : State} {name : Nat} {task : Tid}
    (elsewhere : task.process ≠ .worker name) :
    Unmoved task state (state.killWorker name) where
  own := by
    refine ⟨[.killed name], rfl, ?_⟩
    intro happening member
    cases List.mem_singleton.mp member
    exact elsewhere
  openRow := by
    simp only [State.openRow, State.killWorker, List.find?_filter]
    congr 1
    funext entry
    by_cases mine : entry.task = task
    · simp [mine, elsewhere]
    · simp [mine]
  receipts := by
    intro id
    simp [State.killWorker, elsewhere]

/-- An event is a step that every task it does not kill can rely on. -/
theorem happen_others {world : World} {event : Event} {state after : State}
    {tasks tasksAfter : AppTasks} {task : Tid}
    (spared : ¬ event.Kills task)
    (happened :
      happen world event state tasks = some (after, tasksAfter)) :
    Others task state after := by
  have quiet : after.history = state.history → after.db = state.db →
      Others task state after := by
    intro history db
    exact {
      happen_grows happened with
      own := ⟨[], history, by simp⟩
      openRow := by rw [State.openRow, db, State.openRow]
      receipts := fun id => by rw [db] }
  cases event with
  | ask number request =>
      simp only [happen] at happened
      split at happened
      · cases happened
        exact quiet rfl rfl
      · cases happened
  | hangUp number =>
      cases happened
      exact quiet rfl rfl
  | startWorker name =>
      simp only [happen] at happened
      split at happened
      · cases happened
        exact quiet rfl rfl
      · cases happened
  | kill name =>
      have grows := happen_grows happened
      cases happened
      exact { grows, unmoved_killWorker spared with }
  | tick milliseconds =>
      cases happened
      exact quiet rfl rfl
  | inject fields =>
      cases happened
      exact quiet rfl rfl

/-! ## Programs -/

/-- The programs the system starts. -/
inductive Starts (world : World) : App Unit → Prop
  | serve (request : Request) : Starts world (serve world request)
  | boot : Starts world (bootWorker world)
  | consume : Starts world (consumeRound world)
  | reclaim : Starts world (reclaimRound world)

/-- What follows the return of a coroutine. -/
inductive Follows (world : World) : Tid → Tid → App Unit → Prop
  | consumeAgain (name : Nat) :
      Follows world (.consume name) (.consume name) (consumeRound world)
  | reclaimAgain (name : Nat) :
      Follows world (.reclaim name) (.reclaim name) (reclaimRound world)
  | consumeFirst (name : Nat) :
      Follows world (.boot name) (.consume name) (consumeRound world)
  | reclaimFirst (name : Nat) :
      Follows world (.boot name) (.reclaim name) (reclaimRound world)

/-- What an event starts. -/
inductive Begins (world : World) : Event → Tid → App Unit → Prop
  | serve (number : Nat) (request : Request) :
      Begins world (.ask number request) (.request number)
        (serve world request)
  | boot (name : Nat) :
      Begins world (.startWorker name) (.boot name) (bootWorker world)

theorem Follows.starts {world : World} {finished task : Tid}
    {program : App Unit} (follows : Follows world finished task program) :
    Starts world program := by
  cases follows with
  | consumeAgain name => exact .consume
  | reclaimAgain name => exact .reclaim
  | consumeFirst name => exact .consume
  | reclaimFirst name => exact .reclaim

theorem Begins.starts {world : World} {event : Event} {task : Tid}
    {program : App Unit} (begins : Begins world event task program) :
    Starts world program := by
  cases begins with
  | serve number request => exact .serve request
  | boot name => exact .boot

theorem next_cases {world : World} {finished task : Tid} {tasks : AppTasks}
    {program : App Unit}
    (running : next world finished tasks task = some program) :
    tasks task = some program ∨ Follows world finished task program := by
  cases finished with
  | request number =>
      by_cases same : task = .request number
      · rw [same, next, Function.update_self] at running
        cases running
      · rw [next, Function.update_of_ne same] at running
        exact Or.inl running
  | boot name =>
      by_cases reclaim : task = .reclaim name
      · rw [reclaim, next, Function.update_self] at running
        cases running
        rw [reclaim]
        exact Or.inr (.reclaimFirst name)
      · by_cases consume : task = .consume name
        · rw [next, Function.update_of_ne reclaim, consume,
            Function.update_self] at running
          cases running
          rw [consume]
          exact Or.inr (.consumeFirst name)
        · rw [next, Function.update_of_ne reclaim,
            Function.update_of_ne consume] at running
          by_cases same : task = .boot name
          · rw [same, Function.update_self] at running
            cases running
          · rw [Function.update_of_ne same] at running
            exact Or.inl running
  | consume name =>
      by_cases same : task = .consume name
      · rw [same, next, Function.update_self] at running
        cases running
        rw [same]
        exact Or.inr (.consumeAgain name)
      · rw [next, Function.update_of_ne same] at running
        exact Or.inl running
  | reclaim name =>
      by_cases same : task = .reclaim name
      · rw [same, next, Function.update_self] at running
        cases running
        rw [same]
        exact Or.inr (.reclaimAgain name)
      · rw [next, Function.update_of_ne same] at running
        exact Or.inl running

/-- After an event a task runs what it ran before, unless it was killed, or
what the event has started. -/
theorem happen_tasks {world : World} {event : Event} {state after : State}
    {tasks tasksAfter : AppTasks} {task : Tid} {program : App Unit}
    (happened : happen world event state tasks = some (after, tasksAfter))
    (running : tasksAfter task = some program) :
    (tasks task = some program ∧ ¬ event.Kills task) ∨
      Begins world event task program := by
  cases event with
  | ask number request =>
      simp only [happen] at happened
      split at happened
      · cases happened
        by_cases same : task = .request number
        · rw [same, Function.update_self] at running
          cases running
          rw [same]
          exact Or.inr (.serve number request)
        · rw [Function.update_of_ne same] at running
          exact Or.inl ⟨running, fun kills => kills⟩
      · cases happened
  | hangUp number =>
      cases happened
      by_cases same : task = .request number
      · rw [same, Function.update_self] at running
        cases running
      · rw [Function.update_of_ne same] at running
        exact Or.inl ⟨running, fun kills => kills⟩
  | startWorker name =>
      simp only [happen] at happened
      split at happened
      · cases happened
        by_cases same : task = .boot name
        · rw [same, Function.update_self] at running
          cases running
          rw [same]
          exact Or.inr (.boot name)
        · rw [Function.update_of_ne same] at running
          exact Or.inl ⟨running, fun kills => kills⟩
      · cases happened
  | kill name =>
      cases happened
      by_cases killed : task.process = .worker name
      · rw [withoutWorker, if_pos killed] at running
        cases running
      · rw [withoutWorker, if_neg killed] at running
        exact Or.inl ⟨running, killed⟩
  | tick milliseconds =>
      cases happened
      exact Or.inl ⟨running, fun kills => kills⟩
  | inject fields =>
      cases happened
      exact Or.inl ⟨running, fun kills => kills⟩

end TxnEvents
