import TxnEvents.Delivery.Bounds
import TxnEvents.Delivery.Handover
import TxnEvents.Delivery.Spending

/-!
# What the metrics miss

In a run of one worker the balance is what the two loops have spent, so
whenever both are between their calls the metrics miss nothing but the entries
that do not parse: they agree with the dead letters and the finished
deliveries as long as every entry that was handed out parses, and no longer.
-/

namespace TxnEvents

open Effects Streams

/-! ## Runs of one worker -/

/-- Runs of one worker that nobody kills, in which every Redis command
succeeds. -/
def attended (world : World) (name : Nat) : AppPermit where
  command state task command choice :=
    command.isRedis = true → ∀ reply after,
      exec world state task command choice = some (reply, after) →
        ∃ value, reply = .ok value
  env _ event :=
    match event with
    | .kill _ => False
    | .startWorker other => other = name
    | _ => True

/-- The tasks whose commands move the balance. -/
def loops (name : Nat) : Finset Tid :=
  {.consume name, .reclaim name}

theorem mem_loops {name : Nat} {task : Tid} :
    task ∈ loops name ↔ task = .consume name ∨ task = .reclaim name := by
  simp [loops]

/-- The books of the worker: what its loops have spent is what the balance
shows, and a worker that was never started has counted nothing. -/
structure Books (world : World) (name : Nat) (config : AppConfig) : Prop where
  accounts : ∃ spent, Accounts (balance world name) Unfailing
    (metricsTariff world name) (loops name) config spent
  fresh : Idle config.tasks name →
    config.shared.memory (.worker name) = LocalState.fresh

section Runs

variable {world : World} {name : Nat}

theorem Books.start : Books world name TxnEvents.start where
  accounts := by
    refine ⟨fun _ => 0, ?_, fun _ _ => rfl, ?_⟩
    · rw [Finset.sum_const_zero]
      rfl
    · intro task _ program running
      cases running
  fresh := fun _ => rfl

theorem ok_of_staysInside {state after : State} {task : Tid}
    {command : Command} {choice : Choice}
    {reply : Except PyException command.Reply}
    (inside : command.staysInside = true)
    (taken : exec world state task command choice = some (reply, after)) :
    ∃ value, reply = .ok value := by
  cases command with
  | monotonic =>
      simp only [exec, TxnEvents.monotonic] at taken
      split at taken
      · cases taken
      · cases taken
        exact ⟨_, rfl⟩
  | cacheGet currency =>
      cases taken
      exact ⟨_, rfl⟩
  | cacheSet currency rate expiresAt =>
      cases taken
      exact ⟨_, rfl⟩
  | utcNow =>
      cases taken
      exact ⟨_, rfl⟩
  | random =>
      cases taken
      exact ⟨_, rfl⟩
  | sleep delay =>
      cases taken
      exact ⟨_, rfl⟩
  | inc counter =>
      cases taken
      exact ⟨_, rfl⟩
  | observe note =>
      cases taken
      exact ⟨_, rfl⟩
  | _ => cases inside

theorem unfailing_of_attended {state after : State} {task : Tid}
    {command : Command} {choice : Choice}
    {reply : Except PyException command.Reply}
    (permitted : (attended world name).command state task command choice)
    (taken : exec world state task command choice = some (reply, after)) :
    Unfailing command reply := by
  intro sure
  rcases Bool.or_eq_true_iff.mp sure with inside | redis
  · exact ok_of_staysInside inside taken
  · exact permitted redis reply after taken

theorem Books.run {before : AppConfig} {task : Tid} {command : Command}
    {resume : Except PyException command.Reply → App Unit} {choice : Choice}
    {reply : Except PyException command.Reply} {left : State}
    (books : Books world name before) (counted : Counted before.shared)
    (running : before.tasks task = some (.call command resume))
    (permitted :
      (attended world name).command before.shared task command choice)
    (executed :
      exec world before.shared task command choice = some (reply, left)) :
    Books world name
      ⟨left, Function.update before.tasks task (some (resume reply))⟩ where
  accounts := by
    have unfailing : Unfailing command reply :=
      unfailing_of_attended permitted executed
    obtain ⟨spent, accounts⟩ := books.accounts
    exact ⟨_, accounts.run running unfailing
      (balance_exec counted unfailing executed)⟩
  fresh := by
    intro idle
    have stopped : ∀ other,
        (Function.update before.tasks task (some (resume reply)) other).isNone =
          true → other ≠ task ∧ before.tasks other = none :=
      fun other gone =>
        update_some_eq_none.mp (Option.isNone_iff_eq_none.mp gone)
    obtain ⟨boot, consume, reclaim⟩ := idle
    have elsewhere : Process.worker name ≠ task.process := by
      intro own
      cases task with
      | request number => cases own
      | boot other =>
          cases own
          exact (stopped _ boot).1 rfl
      | consume other =>
          cases own
          exact (stopped _ consume).1 rfl
      | reclaim other =>
          cases own
          exact (stopped _ reclaim).1 rfl
    have idleBefore : Idle before.tasks name :=
      ⟨Option.isNone_iff_eq_none.mpr (stopped _ boot).2,
        Option.isNone_iff_eq_none.mpr (stopped _ consume).2,
        Option.isNone_iff_eq_none.mpr (stopped _ reclaim).2⟩
    change left.memory (.worker name) = LocalState.fresh
    rw [memory_exec_of_ne elsewhere executed]
    exact books.fresh idleBefore

theorem process_of_mem_loops {task : Tid} (member : task ∈ loops name) :
    task.process = .worker name := by
  rcases mem_loops.mp member with rfl | rfl
  · rfl
  · rfl

theorem ne_of_mem_loops {task : Tid} (member : task ∈ loops name) :
    (∀ number, task ≠ .request number) ∧ ∀ other, task ≠ .boot other := by
  rcases mem_loops.mp member with rfl | rfl
  · exact ⟨by simp, by simp⟩
  · exact ⟨by simp, by simp⟩

/-- A loop stops for no return. -/
theorem loop_stopped {finished task : Tid} {tasks : AppTasks}
    (member : task ∈ loops name)
    (stopped : TxnEvents.next world finished tasks task = none) :
    tasks task = none := by
  obtain ⟨noRequest, noBoot⟩ := ne_of_mem_loops member
  rcases next_stopped stopped with
    before | ⟨_, ⟨number, same⟩ | ⟨other, same⟩⟩
  · exact before
  · exact absurd same (noRequest number)
  · exact absurd same (noBoot other)

theorem Follows.outside {finished task : Tid} {program : App Unit}
    (follows : Follows world finished task program) :
    Outside world program := by
  cases follows with
  | consumeAgain other => exact .read
  | reclaimAgain other => exact .pause
  | consumeFirst other => exact .read
  | reclaimFirst other => exact .pause

/-- The loops that follow a return were not inside a round. -/
theorem Follows.idle {finished task : Tid} {tasks : AppTasks}
    {program : App Unit} (follows : Follows world finished task program)
    (alone : Alone tasks) (running : tasks finished = some (.ret ())) :
    tasks task = none ∨ tasks task = some (.ret ()) := by
  have booted : ∀ other, finished = .boot other →
      tasks (.boot other) ≠ none := by
    intro other same
    rw [← same, running]
    exact Option.some_ne_none _
  cases follows with
  | consumeAgain other => exact Or.inr running
  | reclaimAgain other => exact Or.inr running
  | consumeFirst other => exact Or.inl (alone other (booted other rfl)).1
  | reclaimFirst other => exact Or.inl (alone other (booted other rfl)).2

/-- Only the worker has loops. -/
theorem Follows.mem_loops {finished task : Tid} {tasks : AppTasks}
    {program : App Unit} (follows : Follows world finished task program)
    (staffed : Staffed (· = name) tasks) (running : tasks finished ≠ none) :
    task ∈ loops name := by
  apply TxnEvents.mem_loops.mpr
  cases follows with
  | consumeAgain other =>
      have same : other = name := staffed _ other running rfl
      exact Or.inl (by rw [same])
  | reclaimAgain other =>
      have same : other = name := staffed _ other running rfl
      exact Or.inr (by rw [same])
  | consumeFirst other =>
      have same : other = name := staffed _ other running rfl
      exact Or.inl (by rw [same])
  | reclaimFirst other =>
      have same : other = name := staffed _ other running rfl
      exact Or.inr (by rw [same])

/-- A worker whose start has just returned is not idle, and no other return
makes it so. -/
theorem idle_of_next {finished : Tid} {tasks : AppTasks}
    (idle : Idle (TxnEvents.next world finished tasks) name) :
    Idle tasks name := by
  obtain ⟨boot, consume, reclaim⟩ := idle
  rw [Option.isNone_iff_eq_none] at boot consume reclaim
  have noConsume : tasks (.consume name) = none :=
    loop_stopped (TxnEvents.mem_loops.mpr (Or.inl rfl)) consume
  have noReclaim : tasks (.reclaim name) = none :=
    loop_stopped (TxnEvents.mem_loops.mpr (Or.inr rfl)) reclaim
  have noBoot : tasks (.boot name) = none := by
    cases next_stopped boot with
    | inl before => exact before
    | inr returned =>
        rw [← returned.1, TxnEvents.next, Function.update_self] at reclaim
        cases reclaim
  simp [Idle, noBoot, noConsume, noReclaim]

theorem Books.next {state : State} {finished : Tid} {tasks : AppTasks}
    (books : Books world name ⟨state, tasks⟩) (alone : Alone tasks)
    (staffed : Staffed (· = name) tasks)
    (running : tasks finished = some (.ret ())) :
    Books world name ⟨state, TxnEvents.next world finished tasks⟩ where
  accounts := by
    obtain ⟨spent, accounts⟩ := books.accounts
    refine ⟨spent, accounts.reassign rfl ?_ ?_ ?_⟩
    · exact fun task member stopped => loop_stopped member stopped
    · intro task member program runs
      cases next_cases runs with
      | inl kept => exact Or.inl kept
      | inr follows =>
          have own : task.process = .worker name := process_of_mem_loops member
          exact Or.inr ⟨follows.idle alone running, follows.outside.spends own⟩
    · intro task absent program runs
      cases next_cases runs with
      | inl kept => exact Or.inl kept
      | inr follows =>
          have ran : tasks finished ≠ none := by
            rw [running]
            exact Option.some_ne_none _
          exact absurd (follows.mem_loops staffed ran) absent
  fresh := fun idle => books.fresh (idle_of_next idle)

/-! ## Events -/

/-- No event that is permitted moves the balance: the worker is started only
once. -/
theorem balance_happen {event : Event} {state after : State}
    {tasks tasksAfter : AppTasks} (counted : Counted state)
    (fresh : Idle tasks name →
      state.memory (.worker name) = LocalState.fresh)
    (permitted : (attended world name).env state event)
    (happened : happen world event state tasks = some (after, tasksAfter)) :
    balance world name after = balance world name state ∧
      after.memory (.worker name) = state.memory (.worker name) := by
  have grows : Grows state after := happen_grows happened
  have seen : state.history.countP
      (Happening.handsOutUnreadable world after) =
        state.unreadableDeliveries world :=
    unreadableDeliveries_grow counted grows
  cases event with
  | ask number request =>
      simp only [happen] at happened
      split at happened
      · cases happened
        exact ⟨rfl, rfl⟩
      · cases happened
  | hangUp number =>
      cases happened
      exact ⟨rfl, rfl⟩
  | startWorker other =>
      have same : other = name := permitted
      simp only [happen] at happened
      split at happened
      case isTrue idle =>
        cases happened
        have unchanged : state.setLocal (.worker other) LocalState.fresh =
            state := by
          rw [same] at idle ⊢
          rw [State.setLocal, ← fresh idle, Function.update_eq_self]
        rw [unchanged]
        exact ⟨rfl, rfl⟩
      case isFalse => cases happened
  | kill other => exact permitted.elim
  | tick milliseconds =>
      cases happened
      exact ⟨rfl, rfl⟩
  | inject fields =>
      cases happened
      refine ⟨?_, rfl⟩
      rw [balance, State.unreadableDeliveries, seen]
      rfl

theorem free_of_begins {event : Event} {task : Tid} {program : App Unit}
    (begins : Begins world event task program) :
    program.Uses (Prog.Free (metricsTariff world name task)) := by
  cases begins with
  | serve number request =>
      exact uses_serve_of (fun _ routes => routes.uncharged.free)
        (fun _ _ => Command.Uncharged.free trivial) world request
  | boot other =>
      exact (uses_bootWorker world).mono fun _ boots => boots.uncharged.free

/-- Events start no loop and stop none. -/
theorem loop_happen {event : Event} {state after : State}
    {tasks tasksAfter : AppTasks} {task : Tid} (member : task ∈ loops name)
    (permitted : (attended world name).env state event)
    (happened : happen world event state tasks = some (after, tasksAfter)) :
    tasksAfter task = tasks task := by
  obtain ⟨noRequest, noBoot⟩ := ne_of_mem_loops member
  cases event with
  | ask number request =>
      simp only [happen] at happened
      split at happened
      · cases happened
        exact Function.update_of_ne (noRequest number) _ _
      · cases happened
  | hangUp number =>
      cases happened
      exact Function.update_of_ne (noRequest number) _ _
  | startWorker other =>
      simp only [happen] at happened
      split at happened
      · cases happened
        exact Function.update_of_ne (noBoot other) _ _
      · cases happened
  | kill other => exact permitted.elim
  | tick milliseconds =>
      cases happened
      rfl
  | inject fields =>
      cases happened
      rfl

theorem idle_of_happen {event : Event} {state after : State}
    {tasks tasksAfter : AppTasks}
    (permitted : (attended world name).env state event)
    (happened : happen world event state tasks = some (after, tasksAfter))
    (idle : Idle tasksAfter name) : Idle tasks name := by
  have before : ∀ task, task.process = .worker name →
      (tasksAfter task).isNone = true → (tasks task).isNone = true := by
    intro task own stopped
    rcases stopped_cases happened (Option.isNone_iff_eq_none.mp stopped) with
      ⟨number, same⟩ | ⟨other, killed, _⟩ | ⟨none, _⟩
    · rw [same] at own
      cases own
    · rw [killed] at permitted
      exact permitted.elim
    · exact Option.isNone_iff_eq_none.mpr none
  obtain ⟨boot, consume, reclaim⟩ := idle
  exact ⟨before _ rfl boot, before _ rfl consume, before _ rfl reclaim⟩

theorem Books.happen {event : Event} {state after : State}
    {tasks tasksAfter : AppTasks}
    (books : Books world name ⟨state, tasks⟩) (counted : Counted state)
    (permitted : (attended world name).env state event)
    (happened :
      TxnEvents.happen world event state tasks = some (after, tasksAfter)) :
    Books world name ⟨after, tasksAfter⟩ := by
  obtain ⟨balanced, memory⟩ :=
    balance_happen counted books.fresh permitted happened
  constructor
  · obtain ⟨spent, accounts⟩ := books.accounts
    refine ⟨spent, accounts.reassign balanced ?_ ?_ ?_⟩
    · intro task member stopped
      exact (loop_happen member permitted happened).symm.trans stopped
    · intro task member program runs
      exact Or.inl ((loop_happen member permitted happened).symm.trans runs)
    · intro task _ program runs
      cases happen_tasks happened runs with
      | inl kept => exact Or.inl kept.1
      | inr begins => exact Or.inr (free_of_begins begins)
  · intro idle
    change after.memory (.worker name) = LocalState.fresh
    rw [memory]
    exact books.fresh (idle_of_happen permitted happened idle)

theorem reaches_books {config : AppConfig}
    (reaches : Reaches world (attended world name) config) :
    Books world name config := by
  induction reaches with
  | start => exact Books.start
  | @step before after action reached allowed taken inductionHypothesis =>
      have counted : Counted before.shared := reaches_counted reached
      cases System.step_cases taken with
      | ran running executed same =>
          rw [same]
          exact inductionHypothesis.run counted running
            (allowed _ _ running) executed
      | finished running same =>
          have staffed : Staffed (· = name) before.tasks :=
            reaches_staffed (fun _ _ hire => hire) reached
          rw [same]
          exact inductionHypothesis.next (reaches_manned reached).alone
            staffed running
      | happened occurred =>
          exact inductionHypothesis.happen counted allowed occurred

/-- Neither loop of the worker is inside `handle`, `read` or
`claim_stale`. -/
def BetweenCalls (world : World) (name : Nat) (tasks : AppTasks) : Prop :=
  ∀ task ∈ loops name, ∀ program, tasks task = some program →
    Outside world program

theorem balance_eq_zero {config : AppConfig}
    (reaches : Reaches world (attended world name) config)
    (between : BetweenCalls world name config.tasks) :
    balance world name config.shared = 0 := by
  obtain ⟨spent, accounts⟩ := (reaches_books reaches).accounts
  apply accounts.measure_eq_zero unfailing_answerable
  intro task member program running
  have own : task.process = .worker name := process_of_mem_loops member
  exact (between task member program running).spends own

/-- The metrics account for every dead letter and every finished delivery
exactly as long as every entry that was handed out parses. -/
theorem metricsAgree_iff_allParse {config : AppConfig}
    (reaches : Reaches world (attended world name) config)
    (between : BetweenCalls world name config.tasks) :
    MetricsAgree name config.shared ↔
      ∀ task id, .delivered task id ∈ config.shared.history →
        ¬ Unreadable world config.shared id := by
  have balanced : balance world name config.shared = 0 :=
    balance_eq_zero reaches between
  rw [agree_iff_of_balance balanced, unreadableDeliveries_eq_zero_iff]

end Runs

/-! ## Two runs -/

def answersWell {α : Type} : Except PyException α → Bool
  | .ok _ => true
  | .error _ => false

def attending (world : World) (name : Nat) : AppGuard where
  command state task command choice :=
    !command.isRedis ||
      (exec world state task command choice).all fun done =>
        answersWell done.1
  env _ event :=
    match event with
    | .kill _ => false
    | .startWorker other => decide (other = name)
    | _ => true

theorem respects_attending (world : World) (name : Nat) :
    (attending world name).Respects (attended world name) where
  command := by
    intro state task command choice passed redis reply after taken
    simp only [attending, redis, Bool.not_true, Bool.false_or, taken,
      Option.all_some] at passed
    cases reply with
    | ok value => exact ⟨value, rfl⟩
    | error error => cases passed
  env := by
    intro state event passed
    cases event with
    | kill other => cases passed
    | startWorker other =>
        have same : other = name := of_decide_eq_true passed
        exact same
    | _ => exact trivial

/-- The round of the task has returned. -/
def returned (tasks : AppTasks) (task : Tid) : Bool :=
  match tasks task with
  | some (.ret _) => true
  | _ => false

theorem betweenCalls_of_returned {world : World} {name : Nat}
    {tasks : AppTasks} (consume : returned tasks (.consume name) = true)
    (reclaim : returned tasks (.reclaim name) = true) :
    BetweenCalls world name tasks := by
  have outside : ∀ task program, returned tasks task = true →
      tasks task = some program → Outside world program := by
    intro task program rests running
    rw [returned, running] at rests
    cases program with
    | ret value => exact Outside.deliveries []
    | raise error => cases rests
    | call command resume => cases rests
  intro task member program running
  rcases mem_loops.mp member with rfl | rfl
  · exact outside _ program consume running
  · exact outside _ program reclaim running

/-- A reclaim round that finds nothing. -/
def reclaimNothing (name : Nat) : List AppAction :=
  steps (.reclaim name) 2 {}

/-- Both rounds of the worker have returned, and it has finished one
delivery. -/
def finishedOne (config : AppConfig) : Bool :=
  returned config.tasks (.consume 0) &&
    (returned config.tasks (.reclaim 0) &&
      decide (config.shared.finished 0 = 1))

theorem metricsAgree_iff_allParse_coffee :
    ∃ config, Reaches (coffeeWorld {}) (attended (coffeeWorld {}) 0) config ∧
      config.shared.finished 0 = 1 ∧
        (MetricsAgree 0 config.shared ↔
          ∀ task id, .delivered task id ∈ config.shared.history →
            ¬ Unreadable (coffeeWorld {}) config.shared id) := by
  have taken : ((system (coffeeWorld {})).run (attending (coffeeWorld {}) 0)
      start (post 0 coffee {} ++ launch 0 ++
        storeOne 0 (.finite false 11 (-1)) ++ reclaimNothing 0)).any
          finishedOne = true := by decide +kernel
  obtain ⟨config, reaches, shown⟩ :=
    reaches_of_run (respects_attending (coffeeWorld {}) 0) taken
  simp only [finishedOne, Bool.and_eq_true, decide_eq_true_eq] at shown
  obtain ⟨consume, reclaim, finished⟩ := shown
  exact ⟨config, reaches, finished, metricsAgree_iff_allParse reaches
    (betweenCalls_of_returned consume reclaim)⟩

/-- An entry without a payload is dead-lettered, and no counter knows. -/
theorem unparseable_entry_is_not_counted :
    ∃ config, Reaches (coffeeWorld {}) (attended (coffeeWorld {}) 0) config ∧
      BetweenCalls (coffeeWorld {}) 0 config.tasks ∧
        config.shared.redis.deadLetters.length = 1 ∧
          config.shared.finished 0 = 1 ∧
            ¬ MetricsAgree 0 config.shared := by
  have taken : ((system (coffeeWorld {})).run (attending (coffeeWorld {}) 0)
      start ([.env (.inject emptyEntry)] ++ launch 0 ++
        steps (.consume 0) 5 {} ++ reclaimNothing 0)).any (fun config =>
          finishedOne config &&
            (decide (config.shared.redis.deadLetters.length = 1) &&
              !decide (MetricsAgree 0 config.shared))) = true := by
    decide +kernel
  obtain ⟨config, reaches, shown⟩ :=
    reaches_of_run (respects_attending (coffeeWorld {}) 0) taken
  simp only [finishedOne, Bool.and_eq_true, decide_eq_true_eq,
    Bool.not_eq_true', decide_eq_false_iff_not] at shown
  obtain ⟨⟨consume, reclaim, finished⟩, letters, disagree⟩ := shown
  exact ⟨config, reaches, betweenCalls_of_returned consume reclaim, letters,
    finished, disagree⟩

end TxnEvents
