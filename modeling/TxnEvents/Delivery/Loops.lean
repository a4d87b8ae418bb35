import TxnEvents.Delivery.Rounds

/-!
# Every task behaves

A loop that is not running has nothing in hand, and a worker boots only when
its loops are gone.  With that, every program the system starts respects the
conduct, under every interleaving.
-/

namespace TxnEvents

open Effects Streams App

/-- What a task is held to when its program returns: a loop has nothing in
hand. -/
def Rests : Tid → State → Prop
  | .consume name, state => Resting state (.consume name)
  | .reclaim name, state => Resting state (.reclaim name)
  | _, _ => True

theorem Rests.of_resting {task : Tid} {state : State}
    (resting : Resting state task) : Rests task state := by
  cases task with
  | consume name => exact resting
  | reclaim name => exact resting
  | request number => exact trivial
  | boot name => exact trivial

theorem Resting.others {task : Tid} {before after : State}
    (resting : Resting before task) (others : Others task before after) :
    Resting after task := by
  obtain ⟨ordinals, stands⟩ := rested_iff_resting.mpr resting
  exact rested_iff_resting.mp ⟨ordinals, stands.others others⟩

theorem Rests.others {task : Tid} {before after : State}
    (rests : Rests task before) (others : Others task before after) :
    Rests task after := by
  cases task with
  | consume name => exact Resting.others rests others
  | reclaim name => exact Resting.others rests others
  | request number => exact trivial
  | boot name => exact trivial

/-- A killed task has nothing in hand. -/
theorem resting_killWorker {state : State} {name : Nat} {task : Tid}
    (killed : task.process = .worker name) :
    Resting (state.killWorker name) task := by
  intro id
  change phase (.killed name :: state.history) task id = .idle
  rw [phase_cons]
  exact if_pos killed

/-! ## Which tasks run -/

/-- A worker that boots has no loops yet. -/
def Alone (tasks : AppTasks) : Prop :=
  ∀ name, tasks (.boot name) ≠ none →
    tasks (.consume name) = none ∧ tasks (.reclaim name) = none

/-- A task that does not run rests. -/
structure Manned (state : State) (tasks : AppTasks) : Prop where
  resting : ∀ task, tasks task = none → Rests task state
  alone : Alone tasks

theorem update_some_eq_none {tasks : AppTasks} {task other : Tid}
    {program : App Unit} :
    Function.update tasks task (some program) other = none ↔
      other ≠ task ∧ tasks other = none := by
  by_cases same : other = task
  · simp [same]
  · simp [same]

/-- A running task goes on with another program. -/
theorem Alone.goOn {tasks : AppTasks} {task : Tid} {program : App Unit}
    (alone : Alone tasks) (running : tasks task ≠ none) :
    Alone (Function.update tasks task (some program)) := by
  intro name boots
  have booted : tasks (.boot name) ≠ none := by
    intro stopped
    by_cases same : Tid.boot name = task
    · exact running (same ▸ stopped)
    · exact boots (update_some_eq_none.mpr ⟨same, stopped⟩)
  obtain ⟨consume, reclaim⟩ := alone name booted
  refine ⟨update_some_eq_none.mpr ⟨?_, consume⟩,
    update_some_eq_none.mpr ⟨?_, reclaim⟩⟩
  · intro same
    exact running (same ▸ consume)
  · intro same
    exact running (same ▸ reclaim)

/-- What a request does is no worker's concern. -/
theorem Alone.updateRequest {tasks : AppTasks} (alone : Alone tasks)
    (number : Nat) (program : Option (App Unit)) :
    Alone (Function.update tasks (.request number) program) := by
  intro name boots
  rw [Function.update_of_ne (by simp)] at boots
  rw [Function.update_of_ne (by simp), Function.update_of_ne (by simp)]
  exact alone name boots

theorem Alone.next {world : World} {tasks : AppTasks} {finished : Tid}
    (alone : Alone tasks) (running : tasks finished ≠ none) :
    Alone (TxnEvents.next world finished tasks) := by
  cases finished with
  | request number => exact alone.updateRequest number none
  | consume name => exact alone.goOn running
  | reclaim name => exact alone.goOn running
  | boot name =>
      intro other boots
      simp only [TxnEvents.next] at boots ⊢
      rw [Function.update_of_ne (by simp), Function.update_of_ne (by simp)]
        at boots
      by_cases same : other = name
      · rw [same, Function.update_self] at boots
        exact absurd rfl boots
      · have different : Tid.boot other ≠ .boot name := by simpa using same
        rw [Function.update_of_ne different] at boots
        simpa [same] using alone other boots

theorem Alone.happen {world : World} {event : Event} {before after : State}
    {tasks tasksAfter : AppTasks} (alone : Alone tasks)
    (happened :
      TxnEvents.happen world event before tasks = some (after, tasksAfter)) :
    Alone tasksAfter := by
  cases event with
  | ask number request =>
      simp only [TxnEvents.happen] at happened
      split at happened
      · cases happened
        exact alone.updateRequest number _
      · cases happened
  | hangUp number =>
      cases happened
      exact alone.updateRequest number none
  | startWorker name =>
      simp only [TxnEvents.happen] at happened
      split at happened
      case isFalse => cases happened
      case isTrue idle =>
        cases happened
        intro other boots
        rw [Function.update_of_ne (by simp), Function.update_of_ne (by simp)]
        by_cases same : other = name
        · rw [same]
          exact ⟨Option.isNone_iff_eq_none.mp idle.2.1,
            Option.isNone_iff_eq_none.mp idle.2.2⟩
        · have different : Tid.boot other ≠ .boot name := by simpa using same
          rw [Function.update_of_ne different] at boots
          exact alone other boots
  | kill name =>
      cases happened
      intro other boots
      by_cases same : other = name
      · exact absurd (if_pos (by simp [Tid.process, same])) boots
      · simp only [withoutWorker, Tid.process, Process.worker.injEq,
          if_neg same] at boots ⊢
        exact alone other boots
  | tick milliseconds =>
      cases happened
      exact alone
  | inject fields =>
      cases happened
      exact alone

theorem Manned.start : Manned State.initial fun _ => none where
  resting := by
    intro task _
    exact Rests.of_resting fun id => rfl
  alone := fun name _ => ⟨rfl, rfl⟩

theorem Manned.run {world : World} {before after : State} {tasks : AppTasks}
    {task : Tid} {command : Command} {choice : Choice}
    {reply : Except PyException command.Reply} {program next : App Unit}
    (manned : Manned before tasks) (running : tasks task = some program)
    (taken : exec world before task command choice = some (reply, after)) :
    Manned after (Function.update tasks task (some next)) where
  resting := by
    intro other stopped
    obtain ⟨different, wasStopped⟩ := update_some_eq_none.mp stopped
    exact (manned.resting other wasStopped).others
      (exec_others different taken)
  alone := by
    apply manned.alone.goOn
    rw [running]
    exact Option.some_ne_none _

/-- Only a request or a start ends with its return. -/
theorem next_stopped {world : World} {finished task : Tid} {tasks : AppTasks}
    (stopped : TxnEvents.next world finished tasks task = none) :
    tasks task = none ∨
      task = finished ∧
        ((∃ number, task = .request number) ∨ ∃ name, task = .boot name) := by
  by_cases same : task = finished
  · cases finished with
    | request number => exact Or.inr ⟨same, Or.inl ⟨number, same⟩⟩
    | boot name => exact Or.inr ⟨same, Or.inr ⟨name, same⟩⟩
    | consume name => exact Or.inl (update_some_eq_none.mp stopped).2
    | reclaim name => exact Or.inl (update_some_eq_none.mp stopped).2
  · left
    cases finished with
    | request number =>
        rwa [TxnEvents.next, Function.update_of_ne same] at stopped
    | boot name =>
        have left := (update_some_eq_none.mp stopped).2
        have before := (update_some_eq_none.mp left).2
        rwa [Function.update_of_ne same] at before
    | consume name => exact (update_some_eq_none.mp stopped).2
    | reclaim name => exact (update_some_eq_none.mp stopped).2

theorem Manned.next {world : World} {state : State} {tasks : AppTasks}
    {finished : Tid} (manned : Manned state tasks)
    (running : tasks finished ≠ none) :
    Manned state (TxnEvents.next world finished tasks) where
  resting := by
    intro task stopped
    rcases next_stopped stopped with
      before | ⟨_, ⟨number, rfl⟩ | ⟨name, rfl⟩⟩
    · exact manned.resting task before
    · exact trivial
    · exact trivial
  alone := manned.alone.next running

/-- After an event a task that does not run did not run before, was killed, or
is a request that was dropped. -/
theorem stopped_cases {world : World} {event : Event} {before after : State}
    {tasks tasksAfter : AppTasks} {task : Tid}
    (happened :
      TxnEvents.happen world event before tasks = some (after, tasksAfter))
    (stopped : tasksAfter task = none) :
    (∃ number, task = .request number) ∨
      (∃ name, event = .kill name ∧ task.process = .worker name) ∨
        tasks task = none ∧ ¬ event.Kills task := by
  cases event with
  | ask number request =>
      simp only [TxnEvents.happen] at happened
      split at happened
      · cases happened
        exact Or.inr (Or.inr
          ⟨(update_some_eq_none.mp stopped).2, fun kills => kills⟩)
      · cases happened
  | hangUp number =>
      cases happened
      by_cases same : task = .request number
      · exact Or.inl ⟨number, same⟩
      · rw [Function.update_of_ne same] at stopped
        exact Or.inr (Or.inr ⟨stopped, fun kills => kills⟩)
  | startWorker name =>
      simp only [TxnEvents.happen] at happened
      split at happened
      · cases happened
        exact Or.inr (Or.inr
          ⟨(update_some_eq_none.mp stopped).2, fun kills => kills⟩)
      · cases happened
  | kill name =>
      cases happened
      by_cases killed : task.process = .worker name
      · exact Or.inr (Or.inl ⟨name, rfl, killed⟩)
      · rw [withoutWorker, if_neg killed] at stopped
        exact Or.inr (Or.inr ⟨stopped, killed⟩)
  | tick milliseconds =>
      cases happened
      exact Or.inr (Or.inr ⟨stopped, fun kills => kills⟩)
  | inject fields =>
      cases happened
      exact Or.inr (Or.inr ⟨stopped, fun kills => kills⟩)

theorem Manned.happen {world : World} {event : Event} {before after : State}
    {tasks tasksAfter : AppTasks} (manned : Manned before tasks)
    (happened :
      TxnEvents.happen world event before tasks = some (after, tasksAfter)) :
    Manned after tasksAfter where
  resting := by
    intro task stopped
    rcases stopped_cases happened stopped with
      ⟨number, rfl⟩ | ⟨name, rfl, killed⟩ | ⟨wasStopped, spared⟩
    · exact trivial
    · cases happened
      exact Rests.of_resting (resting_killWorker killed)
    · exact (manned.resting task wasStopped).others
        (happen_others spared happened)
  alone := manned.alone.happen happened

theorem reaches_manned {world : World} {permit : AppPermit}
    {config : AppConfig} (reaches : Reaches world permit config) :
    Manned config.shared config.tasks := by
  let manned (reached : AppConfig) : Prop :=
    Manned reached.shared reached.tasks
  change manned config
  refine System.Reachable.invariant Manned.start ?_ reaches
  intro before action after current _ taken
  change Manned before.shared before.tasks at current
  change Manned after.shared after.tasks
  cases System.step_cases taken with
  | ran running executed same =>
      rw [same]
      exact current.run running executed
  | finished running same =>
      rw [same]
      apply current.next
      rw [running]
      exact Option.some_ne_none _
  | happened occurred => exact current.happen occurred

/-! ## Every program is right -/

theorem Command.Boots.plain {command : Command} (boots : command.Boots) :
    command.Plain := by
  cases command with
  | probe => exact trivial
  | random => exact trivial
  | sleep delay => exact trivial
  | xgroupCreate => exact trivial
  | _ => cases boots

section Right

variable {world : World} {acks : Prop} {task : Tid} {state : State}

/-- The conduct puts no condition on a program of plain commands. -/
theorem conduct_plain {program : App Unit} (uses : program.Uses Command.Plain)
    (elsewhere : ∀ reached, Rests task reached) :
    (conduct world acks).wp task program
      (Discipline.returns (Rests task)) state := by
  have knows : Knows task (fun id => phase state.history task id)
      (fun id => lastOrdinal task id state.history) (fun _ => True) state :=
    ⟨⟨fun _ => rfl, fun _ => rfl⟩, trivial⟩
  refine Discipline.wp_mono ?_ (wp_of_plain uses (Lasting.const True) knows)
  intro outcome reached _
  cases outcome with
  | ok value => exact elsewhere reached
  | error error => exact trivial

theorem Begins.wp {event : Event} {program : App Unit}
    (begins : Begins world event task program) :
    (conduct world acks).wp task program
      (Discipline.returns (Rests task)) state := by
  cases begins with
  | serve number request =>
      exact conduct_plain (uses_serve world request) fun _ => trivial
  | boot name =>
      exact conduct_plain
        ((uses_bootWorker world).mono fun _ boots => boots.plain)
        fun _ => trivial

theorem returns_of_restsAgain {program : App Unit}
    (rests : ∀ reached, Resting reached task → Rests task reached)
    (right : (conduct world acks).wp task program (RestsAgain task) state) :
    (conduct world acks).wp task program
      (Discipline.returns (Rests task)) state := by
  refine Discipline.wp_mono ?_ right
  intro outcome reached again
  cases outcome with
  | ok value => exact rests reached again
  | error error => exact trivial

theorem Follows.wp {tasks : AppTasks} {finished : Tid} {program : App Unit}
    (follows : Follows world finished task program)
    (manned : Manned state tasks)
    (running : tasks finished = some (.ret ()))
    (rests : Rests finished state) :
    (conduct world acks).wp task program
      (Discipline.returns (Rests task)) state := by
  cases follows with
  | consumeAgain name =>
      exact returns_of_restsAgain (fun _ again => again)
        (conduct_consumeRound rfl rests)
  | reclaimAgain name =>
      exact returns_of_restsAgain (fun _ again => again)
        (conduct_reclaimRound rfl rests)
  | consumeFirst name =>
      have booted : tasks (.boot name) ≠ none := by
        rw [running]
        exact Option.some_ne_none _
      have resting := manned.resting _ (manned.alone name booted).1
      exact returns_of_restsAgain (fun _ again => again)
        (conduct_consumeRound rfl resting)
  | reclaimFirst name =>
      have booted : tasks (.boot name) ≠ none := by
        rw [running]
        exact Option.some_ne_none _
      have resting := manned.resting _ (manned.alone name booted).2
      exact returns_of_restsAgain (fun _ again => again)
        (conduct_reclaimRound rfl resting)

end Right

/-- In every reachable configuration the counts are right and every running
task behaves. -/
theorem reaches_good {world : World} {acks : Prop} {permit : AppPermit}
    (within : ∀ state task command choice,
      permit.command state task command choice →
        (acking acks).command state task command choice)
    {config : AppConfig} (reaches : Reaches world permit config) :
    (conduct world acks).Good Rests config := by
  have behaving : Reaches world (acking acks) config :=
    System.Reachable.mono within (fun _ _ _ => trivial) reaches
  refine Discipline.sound ?_ ?_ ?_ ?_ behaving
  · intro task before after others _ rests
    exact Rests.others rests others
  · refine ⟨Counted.initial, ?_⟩
    intro task program running
    cases running
  · intro finished state tasks earlier _ running rests task program current
    rcases next_cases current with same | follows
    · exact Or.inl same
    · exact Or.inr (follows.wp (reaches_manned earlier) running rests)
  · intro event before tasks after tasksAfter _ counted _ happened
    refine ⟨happen_counted counted happened, ?_⟩
    intro task program running
    rcases happen_tasks happened running with ⟨same, spared⟩ | begins
    · exact Or.inl ⟨same, happen_others spared happened⟩
    · exact Or.inr begins.wp

end TxnEvents
