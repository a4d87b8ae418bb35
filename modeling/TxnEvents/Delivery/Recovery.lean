import TxnEvents.Delivery.Healthy
import TxnEvents.Streams.Draining

/-!
# Every reachable state recovers

Whatever has happened to the services and the workers, a state in which
messages wait is never one that they cannot get out of: once the services
answer, restarting one worker and letting time pass delivers and acknowledges
everything.
-/

namespace TxnEvents

open Effects Arith Python Streams App

/-! ## Open transactions -/

/-- Only the task has a transaction open. -/
def OwnRows (task : Tid) (state : State) : Prop :=
  ∀ entry ∈ state.db.uncommitted, entry.task = task

/-- Another task has inserted the id and has not committed it yet. -/
def State.Blocked (state : State) (task : Tid) (id : String) : Prop :=
  ∃ other ∈ state.db.uncommitted, other.task ≠ task ∧ other.row.id = id

theorem OwnRows.free {task : Tid} {state : State} (own : OwnRows task state)
    (id : String) : ¬ state.Blocked task id := by
  intro blocked
  rcases blocked with ⟨other, member, elsewhere, _⟩
  exact elsewhere (own other member)

/-- Only workers have transactions open. -/
def RowsOfWorkers (state : State) : Prop :=
  ∀ entry ∈ state.db.uncommitted, ∃ name, entry.task.process = .worker name

/-- Requests insert nothing. -/
def Command.Assigned (task : Tid) (command : Command) : Prop :=
  ∀ row, command = .execute row → ∃ name, task.process = .worker name

section Rows

variable {world : World} {rates : Rates} {task : Tid}
  {before after : State}

theorem mem_uncommitted_of_committed {entry : Uncommitted}
    (member : entry ∈ (Db.committed before task).db.uncommitted) :
    entry ∈ before.db.uncommitted := by
  unfold Db.committed at member
  split at member
  · exact member
  · exact List.mem_of_mem_filter member

theorem mem_uncommitted_of_acknowledged {entry : Uncommitted}
    (member : entry ∈ (Db.acknowledged before task).db.uncommitted) :
    entry ∈ before.db.uncommitted := by
  unfold Db.acknowledged at member
  split at member
  · exact member
  · exact mem_uncommitted_of_committed member

/-- A command opens no transaction but the task's own, and only an insert
does. -/
theorem uncommitted_exec {command : Command} {choice : Choice}
    {reply : Except PyException command.Reply}
    (taken : exec world before task command choice = some (reply, after))
    {entry : Uncommitted} (member : entry ∈ after.db.uncommitted) :
    entry ∈ before.db.uncommitted ∨
      entry.task = task ∧ ∃ row, command = .execute row := by
  by_cases db : command.isDb = false
  · rw [db_of_not_isDb db taken] at member
    exact Or.inl member
  · cases command with
    | execute row =>
        rcases exec_execute taken with
          ⟨_, stored, _, _, _, reached⟩ | ⟨_, _, _, _, reached⟩ | ⟨_, reached⟩
        · rw [reached] at member
          rcases List.mem_cons.mp member with same | old
          · rw [same]
            exact Or.inr ⟨rfl, row, rfl⟩
          · exact Or.inl (List.mem_of_mem_filter old)
        · rw [reached] at member
          exact Or.inl (List.mem_of_mem_filter member)
        · rw [reached] at member
          exact Or.inl (List.mem_of_mem_filter member)
    | commit =>
        rcases exec_commit taken with ⟨_, reached⟩ | ⟨_, reached | reached⟩
        · rw [reached] at member
          exact Or.inl (mem_uncommitted_of_acknowledged member)
        · rw [reached] at member
          exact Or.inl (List.mem_of_mem_filter member)
        · rw [reached] at member
          exact Or.inl (mem_uncommitted_of_committed member)
    | observe note =>
        cases taken
        unfold observe at member
        split at member
        · exact Or.inl member
        · exact Or.inl member
    | _ => exact absurd rfl db

theorem uncommitted_happen {event : Event} {tasks tasksAfter : AppTasks}
    (happened : happen world event before tasks = some (after, tasksAfter))
    {entry : Uncommitted} (member : entry ∈ after.db.uncommitted) :
    entry ∈ before.db.uncommitted := by
  cases event with
  | ask number request =>
      simp only [happen] at happened
      split at happened
      · cases happened
        exact member
      · cases happened
  | startWorker name =>
      simp only [happen] at happened
      split at happened
      · cases happened
        exact member
      · cases happened
  | kill name =>
      cases happened
      exact List.mem_of_mem_filter member
  | _ =>
      cases happened
      exact member

theorem assigned_of_worker {name : Nat} (works : task.process = .worker name)
    (command : Command) : command.Assigned task :=
  fun _ _ => ⟨name, works⟩

theorem Follows.assigned {finished : Tid} {program : App Unit}
    (follows : Follows world finished task program) :
    program.Uses (Command.Assigned task) := by
  cases follows with
  | consumeAgain name => exact Prog.uses_of_all (assigned_of_worker rfl) _
  | reclaimAgain name => exact Prog.uses_of_all (assigned_of_worker rfl) _
  | consumeFirst name => exact Prog.uses_of_all (assigned_of_worker rfl) _
  | reclaimFirst name => exact Prog.uses_of_all (assigned_of_worker rfl) _

theorem Begins.assigned {event : Event} {program : App Unit}
    (begins : Begins world event task program) :
    program.Uses (Command.Assigned task) := by
  cases begins with
  | boot name => exact Prog.uses_of_all (assigned_of_worker rfl) _
  | serve number request =>
      refine uses_serve_of ?_ ?_ world request
      · intro command routes row same
        rw [same] at routes
        exact routes.elim
      · intro asked response row same
        cases same

/-- In every run the tasks keep to what they may insert. -/
theorem reaches_assigned {permit : AppPermit} {config : AppConfig}
    (reaches : Reaches world permit config) :
    ∀ task program, config.tasks task = some program →
      program.Uses (Command.Assigned task) := by
  refine System.Reachable.uses ?_ ?_ ?_ reaches
  · intro task program running
    cases running
  · intro finished tasks task program running
    exact (next_cases running).imp_right Follows.assigned
  · intro event state tasks after tasksAfter task program happened running
    exact (happen_tasks happened running).imp And.left Begins.assigned

theorem reaches_rowsOfWorkers {permit : AppPermit} {config : AppConfig}
    (reaches : Reaches world permit config) : RowsOfWorkers config.shared := by
  refine System.Reachable.invariant_uses
    (fun _ reachable => reaches_assigned reachable) ?_ ?_ ?_ reaches
  · intro entry member
    cases member
  · intro state task command choice reply after held assigned _ taken entry
      member
    rcases uncommitted_exec taken member with old | ⟨own, row, inserts⟩
    · exact held entry old
    · rw [own]
      exact assigned row inserts
  · intro state event tasks after tasksAfter held _ happened entry member
    exact held entry (uncommitted_happen happened member)

theorem OwnRows.exec {command : Command} {choice : Choice}
    {reply : Except PyException command.Reply} (own : OwnRows task before)
    (taken : exec world before task command choice = some (reply, after)) :
    OwnRows task after := by
  intro entry member
  rcases uncommitted_exec taken member with old | ⟨mine, _⟩
  · exact own entry old
  · exact mine

end Rows

/-! ## A program alone comes to its end -/

/-- The rate service's answer. -/
def answerOf (rates : Rates) (currency : String) : HttpResponse :=
  match rates currency with
  | some rate => ⟨200, "", .ok rate⟩
  | none => ⟨404, "", .ok (.finite false 0 0)⟩

theorem gives_answerOf (rates : Rates) (currency : String) :
    (HttpOutcome.answered (answerOf rates currency)).Gives rates currency := by
  refine ⟨_, rfl, ?_⟩
  rw [answerOf]
  cases rates currency with
  | none => exact ⟨by decide, by decide⟩
  | some rate => exact ⟨rfl, rfl⟩

/-- The choice with which a command succeeds. -/
def obliging (answer : String → HttpResponse) (state : State) (task : Tid) :
    Command → Choice
  | .httpGet currency => { http := .answered (answer currency) }
  | .monotonic => { clock := (state.memory task.process).clock }
  | _ => {}

/-- A permit under which the services are healthy and every command can
succeed: the rate service may give this answer. -/
structure Serving (rates : Rates) (answer : String → HttpResponse)
    (permit : AppPermit) : Prop where
  healthy : ∀ {state : State} {task : Tid} {command : Command}
    {choice : Choice}, permit.command state task command choice →
      (recovering rates).command state task command choice
  obliging : ∀ (state : State) (task : Tid) (command : Command),
    permit.command state task command (obliging answer state task command)
  events : ∀ (state : State) (event : Event),
    (recovering rates).env state event → permit.env state event

theorem serving_recovering (rates : Rates) :
    Serving rates (answerOf rates) (recovering rates) where
  healthy := id
  obliging := by
    intro state task command
    cases command with
    | httpGet currency =>
        refine ⟨rfl, ?_⟩
        intro asked same
        cases same
        exact gives_answerOf rates currency
    | _ => exact ⟨rfl, fun _ different => nomatch different⟩
  events := fun _ _ => id

section Progress

variable {world : World} {rates : Rates} {answer : String → HttpResponse}
  {permit : AppPermit} {task : Tid} {before after : State}

/-- Every command can succeed, but for an insert that waits for another
transaction. -/
theorem obliging_executes {command : Command}
    (free : ∀ row stored, command = .execute row →
      row.toColumns (world.localZone task.process) = .ok stored →
        ¬ before.Blocked task stored.id) :
    ∃ reply left, exec world before task command
      (obliging answer before task command) = some (reply, left) := by
  cases command with
  | xadd fields maxlen =>
      have added : ∃ effect, Redis.xadd before fields maxlen 0 =
          some effect := by
        unfold Redis.xadd
        split
        case h_1 => exact ⟨_, rfl⟩
        case h_2 limit =>
          split
          case isTrue => exact ⟨_, rfl⟩
          case isFalse =>
            have nothing : (before.redis.stream.add
                (encodeFields fields)).MayTrim limit.toNat 0 :=
              Or.inl (Nat.zero_le _)
            exact ⟨_, if_pos nothing⟩
      rcases added with ⟨effect, added⟩
      have settled : (Redis.xadd before fields maxlen 0).map
          (settle .ok before) = some (effect.1, effect.2) := by
        rw [added]
        rfl
      exact ⟨effect.1, effect.2, settled⟩
  | execute row =>
      simp only [exec, obliging, Db.execute, Db.insert]
      split
      case h_1 => exact ⟨_, _, rfl⟩
      case h_2 stored accepted =>
        split
        · exact ⟨_, _, rfl⟩
        · have unblocked : ¬ before.Blocked task stored.id :=
            free row stored rfl accepted
          exact ⟨_, _, if_neg unblocked⟩
  | monotonic =>
      have reading : TxnEvents.monotonic before task
          (before.memory task.process).clock = some _ :=
        if_neg (lt_irrefl _)
      exact ⟨_, _, reading⟩
  | _ => exact ⟨_, _, rfl⟩

theorem RunsAlone.healthy {α : Type} {body : App α}
    {outcome : Except PyException α} (serving : Serving rates answer permit)
    (runs : RunsAlone world permit task body before outcome after) :
    RunsHealthy world rates task body before outcome after := by
  refine runs.mono ?_
  intro met command reply left performed
  rcases performed with ⟨choice, permitted, taken⟩
  exact ⟨choice, serving.healthy permitted, taken⟩

theorem exists_runsAlone {α : Type} (serving : Serving rates answer permit)
    (own : OwnRows task before) (body : App α) :
    ∃ outcome after,
      RunsAlone world permit task body before outcome after := by
  let anything (_ : Command) : Prop := True
  have uses : body.Uses anything := Prog.uses_of_all (fun _ => trivial) body
  refine Prog.exists_runs_of Eq.refl ?_ uses own
  intro state command held _
  have executes : ∃ reply left, exec world state task command
      (TxnEvents.obliging answer state task command) = some (reply, left) :=
    obliging_executes fun _ _ _ _ => held.free _
  rcases executes with ⟨reply, left, taken⟩
  exact ⟨reply, left, ⟨_, serving.obliging state task command, taken⟩,
    held.exec taken⟩

theorem OwnRows.runs {α : Type} {body : App α}
    {outcome : Except PyException α} (own : OwnRows task before)
    (runs : RunsAlone world permit task body before outcome after) :
    OwnRows task after := by
  let anything (_ : Command) : Prop := True
  have uses : body.Uses anything := Prog.uses_of_all (fun _ => trivial) body
  refine runs.preserves (OwnRows task) uses ?_ ?_ own
  · intro first second same held
    rwa [← same]
  · intro met command reply left _ performed held
    rcases performed with ⟨choice, _, taken⟩
    exact held.exec taken

end Progress

/-! ## Restarting a worker -/

/-- The loops of the worker are at the start of their rounds, and no
transaction is open. -/
structure Fresh (world : World) (name : Nat) (config : AppConfig) : Prop where
  consuming : config.tasks (.consume name) = some (consumeRound world)
  reclaiming : config.tasks (.reclaim name) = some (reclaimRound world)
  closed : config.shared.db.uncommitted = []

/-- What a recovery keeps: killing and starting workers, waiting, and programs
that run alone. -/
structure Endures (world : World) (rates : Rates) (holds : State → Prop) :
    Prop where
  kill : ∀ {state : State} (name : Nat), holds state →
    holds (state.killWorker name)
  boot : ∀ {state : State} (name : Nat), holds state →
    holds (state.setLocal (.worker name) LocalState.fresh)
  wait : ∀ {state : State} (passed : Nat), holds state →
    holds (state.wait passed)
  runs : ∀ {task : Tid} {program : App Unit} {before after : State}
    {outcome : Except PyException Unit}, Starts world program →
      RunsHealthy world rates task program before outcome after →
        holds before → holds after

theorem Endures.trivial (world : World) (rates : Rates) :
    Endures world rates fun _ => True where
  kill := fun _ _ => True.intro
  boot := fun _ _ => True.intro
  wait := fun _ _ => True.intro
  runs := fun _ _ _ => True.intro

section Restart

variable {world : World} {rates : Rates} {answer : String → HttpResponse}
  {permit : AppPermit} {config : AppConfig} {holds : State → Prop}

theorem reachable_kill (serving : Serving rates answer permit) (name : Nat) :
    (system world).Reachable permit config
      ⟨config.shared.killWorker name, withoutWorker config.tasks name⟩ := by
  have allowed : permit.Allows config (.env (.kill name)) :=
    serving.events _ _ (Or.inl ⟨name, rfl⟩)
  have killed : (system world).step config (.env (.kill name)) =
      some ⟨config.shared.killWorker name,
        withoutWorker config.tasks name⟩ := rfl
  exact System.Reachable.start.step allowed killed

theorem reachable_tick (serving : Serving rates answer permit)
    (passed : Nat) :
    (system world).Reachable permit config
      ⟨config.shared.wait passed, config.tasks⟩ := by
  have allowed : permit.Allows config (.env (.tick passed)) :=
    serving.events _ _ (Or.inr (Or.inr ⟨passed, rfl⟩))
  have ticked : (system world).step config (.env (.tick passed)) =
      some ⟨config.shared.wait passed, config.tasks⟩ := rfl
  exact System.Reachable.start.step allowed ticked

/-- Workers are killed until no transaction is open. -/
theorem exists_closed (serving : Serving rates answer permit)
    (endures : Endures world rates holds)
    (held : holds config.shared) (crewed : RowsOfWorkers config.shared) :
    ∃ after, (system world).Reachable permit config after ∧
      holds after.shared ∧ after.shared.redis = config.shared.redis ∧
      after.shared.db.uncommitted = [] := by
  let good (reached : AppConfig) : Prop :=
    RowsOfWorkers reached.shared ∧ holds reached.shared ∧
      reached.shared.redis = config.shared.redis
  let open_ (reached : AppConfig) : Nat :=
    reached.shared.db.uncommitted.length
  have current : good config := ⟨crewed, held, rfl⟩
  have drains : ∃ last,
      (system world).Reachable permit config last ∧ good last ∧
        open_ last = 0 := by
    refine System.Reachable.descends open_ ?_ current
    intro before still more
    rcases still with ⟨crew, kept, same⟩
    rcases List.exists_cons_of_length_pos more with ⟨first, rest, listed⟩
    have here : first ∈ before.shared.db.uncommitted := by
      rw [listed]
      exact List.mem_cons_self
    rcases crew first here with ⟨name, works⟩
    refine ⟨_, reachable_kill serving name,
      ⟨?_, endures.kill name kept, same⟩, ?_⟩
    · intro entry member
      exact crew entry (List.mem_of_mem_filter member)
    · refine List.length_filter_lt_length_iff_exists.mpr ⟨first, here, ?_⟩
      simp [works]
  rcases drains with ⟨last, reachable, ⟨_, kept, same⟩, none_⟩
  exact ⟨last, reachable, kept, same, List.length_eq_zero_iff.mp none_⟩

theorem uncommitted_killWorker {state : State} {name : Nat}
    (own : ∀ entry ∈ state.db.uncommitted,
      entry.task.process = .worker name) :
    (state.killWorker name).db.uncommitted = [] := by
  refine List.filter_eq_nil_iff.mpr ?_
  intro entry member
  simp [own entry member]

/-- A worker is killed and started again, and gets to its loops. -/
theorem exists_restart (serving : Serving rates answer permit)
    (endures : Endures world rates holds)
    (held : holds config.shared) (name : Nat)
    (own : ∀ entry ∈ config.shared.db.uncommitted,
      entry.task.process = .worker name) :
    ∃ after, (system world).Reachable permit config after ∧
      Fresh world name after ∧ holds after.shared ∧ after.shared.redis =
        { config.shared.redis with
          group := some (config.shared.redis.group.getD Group.fromStart) } := by
  let killed : AppConfig :=
    ⟨config.shared.killWorker name, withoutWorker config.tasks name⟩
  let started : AppConfig :=
    ⟨killed.shared.setLocal (.worker name) LocalState.fresh,
      Function.update killed.tasks (.boot name) (some (bootWorker world))⟩
  have idle : Idle killed.tasks name := by
    refine ⟨?_, ?_, ?_⟩
    · exact Option.isNone_iff_eq_none.mpr (if_pos rfl)
    · exact Option.isNone_iff_eq_none.mpr (if_pos rfl)
    · exact Option.isNone_iff_eq_none.mpr (if_pos rfl)
  have starting : (system world).step killed (.env (.startWorker name)) =
      some started := by
    simp only [System.step, system, happen, if_pos idle]
    rfl
  have allowed : permit.Allows killed (.env (.startWorker name)) :=
    serving.events _ _ (Or.inr (Or.inl ⟨name, rfl⟩))
  have reached : (system world).Reachable permit config started :=
    (reachable_kill serving name).step allowed starting
  have closed : started.shared.db.uncommitted = [] :=
    uncommitted_killWorker own
  have alone : OwnRows (.boot name) started.shared := by
    intro entry member
    rw [closed] at member
    cases member
  have boots : ∃ outcome after, RunsAlone world permit (.boot name)
      (bootWorker world) started.shared outcome after :=
    exists_runsAlone serving alone (bootWorker world)
  rcases boots with ⟨outcome, after, runs⟩
  rcases runs_bootWorker (RunsAlone.healthy serving runs) with ⟨returned, redis⟩
  rw [returned] at runs
  have booted := reached.alone (Function.update_self ..) runs
  have finished := booted.finish (Function.update_self ..)
  have kept := endures.runs .boot (RunsAlone.healthy serving runs)
    (endures.boot name (endures.kill name held))
  refine ⟨_, finished, ⟨?_, ?_, ?_⟩, kept, redis⟩
  · simp [system, next]
  · simp [system, next]
  · let none_ (state : State) : Prop := state.db.uncommitted = []
    refine runs.preserves none_ (uses_bootWorker world) ?_ ?_ closed
    · intro first second same held
      rwa [← same]
    · intro met command reply left boots performed held
      rcases performed with ⟨choice, _, taken⟩
      refine List.eq_nil_iff_forall_not_mem.mpr ?_
      intro entry member
      rcases uncommitted_exec taken member with old | ⟨_, row, inserts⟩
      · rw [held] at old
        cases old
      · rw [inserts] at boots
        exact boots

end Restart

/-! ## Round after round -/

/-- The task is at the start of its round, and can go through it. -/
structure Able (holds : State → Prop) (task : Tid) (program : App Unit)
    (config : AppConfig) : Prop where
  kept : holds config.shared
  running : config.tasks task = some program
  own : OwnRows task config.shared
  legible : Legible config.shared

/-- The entries that are still to be handed out. -/
def RedisState.unreadCount (redis : RedisState) : Nat :=
  redis.group.elim 0 fun group => group.unreadCount redis.stream

/-- The entries that are still to be acknowledged. -/
def RedisState.pendingCount (redis : RedisState) : Nat :=
  redis.group.elim 0 fun group => group.pending.length

section Rounds

variable {world : World} {rates : Rates} {answer : String → HttpResponse}
  {permit : AppPermit} {config : AppConfig} {task : Tid}
  {program : App Unit} {group : Group} {holds : State → Prop}

/-- A task goes once through its round while the others wait. -/
theorem Able.round {ids : List MsgId} {handedOut : Group}
    (serving : Serving rates answer permit)
    (endures : Endures world rates holds)
    (able : Able holds task program config) (starts : Starts world program)
    (again : ∀ tasks, next world task tasks task = some program)
    (rounds : ∀ {outcome after},
      RunsHealthy world rates task program config.shared outcome after →
        outcome = .ok () ∧ Round ids handedOut config.shared after) :
    ∃ after, (system world).Reachable permit config after ∧
      Able holds task program after ∧ Round ids handedOut config.shared
        after.shared := by
  have ends : ∃ outcome after,
      RunsAlone world permit task program config.shared outcome after :=
    exists_runsAlone serving able.own program
  rcases ends with ⟨outcome, after, runs⟩
  have healthy := RunsAlone.healthy serving runs
  rcases rounds healthy with ⟨returned, round⟩
  have own := able.own.runs runs
  have kept := endures.runs starts healthy able.kept
  rw [returned] at runs
  have ran := System.Reachable.start.alone able.running runs
  have finished := ran.finish (Function.update_self ..)
  refine ⟨_, finished, ⟨kept, ?_, own, ?_⟩, round⟩
  · exact again _
  · exact able.legible.of_stream_eq round.stream

/-- The consume loop reads to the end of the stream. -/
theorem exists_read_on {name : Nat}
    (serving : Serving rates answer permit)
    (endures : Endures world rates holds)
    (batch : 1 ≤ world.settings.batchSize)
    (able : Able holds (.consume name) (consumeRound world) config)
    (found : config.shared.redis.group.isSome = true) :
    ∃ after, (system world).Reachable permit config after ∧
      Able holds (.consume name) (consumeRound world) after ∧
      after.shared.redis.group.isSome = true ∧
      after.shared.redis.stream = config.shared.redis.stream ∧
      after.shared.redis.unreadCount = 0 := by
  let good (reached : AppConfig) : Prop :=
    Able holds (.consume name) (consumeRound world) reached ∧
      reached.shared.redis.group.isSome = true ∧
      reached.shared.redis.stream = config.shared.redis.stream
  let unread (reached : AppConfig) : Nat := reached.shared.redis.unreadCount
  have current : good config := ⟨able, found, rfl⟩
  have drains : ∃ last,
      (system world).Reachable permit config last ∧ good last ∧
        unread last = 0 := by
    refine System.Reachable.descends unread ?_ current
    intro before held more
    rcases held with ⟨ready, present, same⟩
    rcases Option.isSome_iff_exists.mp present with ⟨group, grouped⟩
    have again : ∀ tasks, next world (.consume name) tasks (.consume name) =
        some (consumeRound world) :=
      fun tasks => Function.update_self ..
    rcases ready.round serving endures .consume again
        (runs_consumeRound grouped batch ready.legible)
      with ⟨after, reachable, still, round⟩
    rcases round.group with ⟨left, leftOver, position, _⟩
    have stream := round.stream
    refine ⟨after, reachable, ⟨still, ?_, stream.trans same⟩, ?_⟩
    · rw [leftOver]
      rfl
    · have some_ : 0 < group.unreadCount before.shared.redis.stream := by
        have counted : 0 < before.shared.redis.unreadCount := more
        rwa [RedisState.unreadCount, grouped] at counted
      have positive : 1 ≤ world.settings.batchSize.toNat := by omega
      change after.shared.redis.unreadCount <
        before.shared.redis.unreadCount
      rw [RedisState.unreadCount, RedisState.unreadCount, leftOver, grouped,
        stream]
      change left.unreadCount _ < group.unreadCount _
      rw [Group.unreadCount_eq_of_lastDelivered_eq position]
      exact Group.unreadCount_read_lt positive some_
  rcases drains with ⟨last, reachable, ⟨ready, present, same⟩, none_⟩
  exact ⟨last, reachable, ready, present, same, none_⟩

/-- The reclaim loop settles the whole pending list, once every entry of it is
idle. -/
theorem exists_reclaim_on {name : Nat}
    (serving : Serving rates answer permit)
    (endures : Endures world rates holds)
    (batch : 1 ≤ world.settings.batchSize)
    (nonnegative : 0 ≤ world.settings.minIdleMs)
    (able : Able holds (.reclaim name) (reclaimRound world) config)
    (found : config.shared.redis.group = some group)
    (idle : group.AllIdle config.shared.redis.now
      world.settings.minIdleMs.toNat) :
    ∃ after, (system world).Reachable permit config after ∧
      holds after.shared ∧
      after.shared.redis.stream = config.shared.redis.stream ∧
      ∃ left, after.shared.redis.group = some left ∧ left.pending = [] ∧
        left.lastDelivered = group.lastDelivered := by
  let good (reached : AppConfig) : Prop :=
    Able holds (.reclaim name) (reclaimRound world) reached ∧
      reached.shared.redis.stream = config.shared.redis.stream ∧
      ∃ left, reached.shared.redis.group = some left ∧
        left.lastDelivered = group.lastDelivered ∧
        left.AllIdle reached.shared.redis.now world.settings.minIdleMs.toNat
  let pending (reached : AppConfig) : Nat := reached.shared.redis.pendingCount
  have current : good config := ⟨able, rfl, group, found, rfl, idle⟩
  have drains : ∃ last,
      (system world).Reachable permit config last ∧ good last ∧
        pending last = 0 := by
    refine System.Reachable.descends pending ?_ current
    intro before held more
    rcases held with ⟨ready, same, earlier, grouped, position, waiting⟩
    have again : ∀ tasks, next world (.reclaim name) tasks (.reclaim name) =
        some (reclaimRound world) :=
      fun tasks => Function.update_self ..
    rcases ready.round serving endures .reclaim again
        (runs_reclaimRound grouped batch nonnegative ready.legible)
      with ⟨after, reachable, still, round⟩
    rcases round.group with ⟨left, leftOver, moved, sublist, settled⟩
    have cleared : Group.Cleared earlier left before.shared.redis.stream
        before.shared.redis.now world.settings.minIdleMs.toNat
        world.settings.batchSize.toNat := ⟨sublist, settled⟩
    refine ⟨after, reachable,
      ⟨still, round.stream.trans same, left, leftOver, moved.trans position,
        ?_⟩, ?_⟩
    · rw [round.now]
      exact cleared.allIdle waiting
    · have some_ : 0 < earlier.pending.length := by
        have counted : 0 < before.shared.redis.pendingCount := more
        rwa [RedisState.pendingCount, grouped] at counted
      have positive : 1 ≤ world.settings.batchSize.toNat := by omega
      change after.shared.redis.pendingCount <
        before.shared.redis.pendingCount
      rw [RedisState.pendingCount, RedisState.pendingCount, leftOver, grouped]
      exact cleared.length_lt positive waiting some_
  rcases drains with
    ⟨last, reachable, ⟨ready, same, left, grouped, position, _⟩, none_⟩
  refine ⟨last, reachable, ready.kept, same, left, grouped, ?_, position⟩
  have empty : last.shared.redis.pendingCount = 0 := none_
  rw [RedisState.pendingCount, grouped] at empty
  exact List.length_eq_zero_iff.mp empty

end Rounds

/-! ## Recovery -/

/-- Everything in the stream has been handed out, and nothing is pending. -/
structure Complete (state : State) : Prop where
  delivered : ∀ id, ¬ Undelivered state id
  acknowledged : ∀ id, ¬ state.Pending id

section Recovery

variable {world : World} {rates : Rates} {answer : String → HttpResponse}
  {permit met : AppPermit} {config : AppConfig} {holds : State → Prop}

/-- Every entry is stored or dead-lettered. -/
theorem Complete.accounted {id : MsgId}
    (complete : Complete config.shared)
    (unbounded : world.settings.streamMaxlen = none)
    (reaches : Reaches world met config)
    (within : id < config.shared.redis.stream.entries.length) :
    Accounted world config.shared id := by
  have kept := (reaches_safe (sparing_of_unbounded unbounded reaches)).kept
    trivial
  apply kept.accounted id
  by_contra unfinished
  have live := kept.live id within unfinished
  by_cases handedOut : config.shared.HandedOut id
  · exact complete.acknowledged id
      (State.pending_of_not_retired unfinished handedOut)
  · exact complete.delivered id ⟨live, handedOut⟩

/-- From a state with no open transaction, one worker is enough. -/
theorem exists_complete (serving : Serving rates answer permit)
    (endures : Endures world rates holds)
    (held : holds config.shared) (name : Nat)
    (batch : 1 ≤ world.settings.batchSize)
    (nonnegative : 0 ≤ world.settings.minIdleMs)
    (legible : Legible config.shared)
    (closed : config.shared.db.uncommitted = []) :
    ∃ after, (system world).Reachable permit config after ∧
      holds after.shared ∧ Complete after.shared ∧
      after.shared.redis.stream = config.shared.redis.stream := by
  have none_ : ∀ entry ∈ config.shared.db.uncommitted,
      entry.task.process = .worker name := by
    intro entry member
    rw [closed] at member
    cases member
  -- The first start reads on to the end of the stream.
  rcases exists_restart serving endures held name none_ with
    ⟨first, toFirst, fresh, kept, redis⟩
  have consumes : Able holds (.consume name) (consumeRound world) first := by
    refine ⟨kept, fresh.consuming, ?_,
      legible.of_stream_eq (by rw [redis])⟩
    intro entry member
    rw [fresh.closed] at member
    cases member
  rcases exists_read_on serving endures batch consumes (by rw [redis]; rfl) with
    ⟨second, toSecond, able, grouped, sameStream, allRead⟩
  -- The second start has no open transaction, so its reclaim loop can work.
  have own : ∀ entry ∈ second.shared.db.uncommitted,
      entry.task.process = .worker name := by
    intro entry member
    rw [able.own entry member]
    rfl
  rcases exists_restart serving endures able.kept name own with
    ⟨third, toThird, ready, still, redisAgain⟩
  rcases Option.isSome_iff_exists.mp grouped with ⟨group, found⟩
  have unmoved : third.shared.redis = second.shared.redis := by
    rw [redisAgain, found, Option.getD_some, ← found]
  rcases group.exists_allIdle third.shared.redis.now
    world.settings.minIdleMs.toNat with ⟨passed, idle⟩
  let waited : AppConfig := ⟨third.shared.wait passed, third.tasks⟩
  have reclaims : Able holds (.reclaim name) (reclaimRound world) waited := by
    refine ⟨endures.wait passed still, ready.reclaiming, ?_,
      able.legible.of_stream_eq ?_⟩
    · intro entry member
      have listed : entry ∈ third.shared.db.uncommitted := member
      rw [ready.closed] at listed
      cases listed
    · change third.shared.redis.stream = second.shared.redis.stream
      rw [unmoved]
  have here : waited.shared.redis.group = some group := by
    change third.shared.redis.group = some group
    rw [unmoved, found]
  rcases exists_reclaim_on serving endures batch nonnegative reclaims here
      idle with
    ⟨last, toLast, keptLast, same, left, leftOver, none_, position⟩
  have stream : last.shared.redis.stream = config.shared.redis.stream := by
    rw [same]
    change third.shared.redis.stream = _
    rw [unmoved, sameStream, redis]
  refine ⟨last, (((toFirst.trans toSecond).trans toThird).trans
    (reachable_tick serving passed)).trans toLast, keptLast, ⟨?_, ?_⟩, stream⟩
  · intro id undelivered
    apply undelivered.2
    refine ⟨left, leftOver, ?_⟩
    rw [position]
    have live : second.shared.redis.stream.Live id := by
      have there := undelivered.1
      rw [same] at there
      change third.shared.redis.stream.Live id at there
      rwa [unmoved] at there
    rw [RedisState.unreadCount, found] at allRead
    exact Group.lt_lastDelivered_of_unreadCount allRead live
  · intro id pending
    rcases pending with ⟨current, same, entry, member, _⟩
    rw [leftOver] at same
    cases same
    rw [none_] at member
    cases member

/-- A recovery from any reachable state, that keeps what recoveries keep. -/
theorem exists_recovery (serving : Serving rates answer permit)
    (endures : Endures world rates holds)
    (held : holds config.shared)
    (batch : 1 ≤ world.settings.batchSize)
    (nonnegative : 0 ≤ world.settings.minIdleMs)
    (reaches : Reaches world met config)
    (legible : Legible config.shared) :
    ∃ after, (system world).Reachable permit config after ∧
      holds after.shared ∧ Complete after.shared ∧
      after.shared.redis.stream = config.shared.redis.stream := by
  rcases exists_closed serving endures held (reaches_rowsOfWorkers reaches) with
    ⟨closed, toClosed, kept, redis, none_⟩
  rcases exists_complete serving endures kept 0 batch nonnegative
      (legible.of_stream_eq (by rw [redis])) none_ with
    ⟨after, toAfter, still, complete, stream⟩
  exact ⟨after, toClosed.trans toAfter, still, complete,
    stream.trans (by rw [redis])⟩

/-- No reachable state is beyond recovery.  Whatever services and workers have
done, when the services are back, killing and starting workers and waiting are
enough to have every entry of the stream delivered and acknowledged, and
without a bound on the stream each one is then stored or dead-lettered.  That
takes a batch size of at least 1, an idle time of at least 0 and entries that
are text, without which Redis or its client refuses every read. -/
theorem every_state_recovers (rates : Rates)
    (batch : 1 ≤ world.settings.batchSize)
    (nonnegative : 0 ≤ world.settings.minIdleMs)
    (reaches : Reaches world met config)
    (legible : Legible config.shared) :
    ∃ after, (system world).Reachable (recovering rates) config after ∧
      Complete after.shared ∧
      after.shared.redis.stream = config.shared.redis.stream ∧
      (world.settings.streamMaxlen = none →
        ∀ id < after.shared.redis.stream.entries.length,
          Accounted world after.shared id) := by
  rcases exists_recovery (serving_recovering rates)
      (Endures.trivial world rates) True.intro batch nonnegative reaches
      legible with ⟨after, later, _, complete, stream⟩
  refine ⟨after, later, complete, stream, ?_⟩
  intro unbounded id within
  have free : ∀ {permit : AppPermit} {first second : AppConfig},
      (system world).Reachable permit first second →
        (system world).Reachable Permit.any first second :=
    System.Reachable.mono (fun _ _ _ _ _ => trivial) fun _ _ _ => trivial
  exact complete.accounted unbounded ((free reaches).trans (free later)) within

end Recovery

/-! ## A message left behind -/

/-- The message is pending, and the whole stream can be decoded. -/
def showsStranded (id : MsgId) (config : AppConfig) : Bool :=
  (List.range config.shared.redis.stream.entries.length).all
      (fun entry => (config.shared.entryFields entry).isSome) &&
    config.shared.redis.group.any fun group => decide (group.Pending id)

theorem stranded_of_shows {id : MsgId} {config : AppConfig}
    (shown : showsStranded id config = true) :
    Legible config.shared ∧ config.shared.Pending id := by
  rw [showsStranded, Bool.and_eq_true] at shown
  constructor
  · intro entry within
    exact List.all_eq_true.mp shown.1 entry (List.mem_range.mpr within)
  · rcases (Option.any_eq_true _ _).mp shown.2 with ⟨group, found, pending⟩
    exact ⟨group, found, of_decide_eq_true pending⟩

theorem every_state_recovers_coffee :
    ∃ config, Reaches (coffeeWorld unbounded) Permit.any config ∧
      config.shared.Pending 0 ∧
      ∃ after, (system (coffeeWorld unbounded)).Reachable
          (recovering euroRates) config after ∧
        Complete after.shared ∧
        after.shared.redis.stream = config.shared.redis.stream ∧
        ((coffeeWorld unbounded).settings.streamMaxlen = none →
          ∀ id < after.shared.redis.stream.entries.length,
            Accounted (coffeeWorld unbounded) after.shared id) := by
  have taken : ((system (coffeeWorld unbounded)).run Guard.any start
      (post 0 coffee {} ++ readAndDie 0)).any (showsStranded 0) = true := by
    decide +kernel
  rcases reaches_of_run respects_any taken with ⟨config, reaches, shown⟩
  rcases stranded_of_shows shown with ⟨legible, pending⟩
  exact ⟨config, reaches, pending,
    every_state_recovers euroRates (by decide) (by decide) reaches legible⟩

end TxnEvents
