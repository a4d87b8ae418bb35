import TxnEvents.Delivery.Healthy
import TxnEvents.Effects.Ends

/-!
# What a loop survives

Only Redis can stop a worker.  As long as its commands succeed and every entry
can be decoded, no round of a loop ends with an exception, whatever the rate
service and the database do and whatever the entries say.
-/

namespace TxnEvents

open Effects Python Streams App

/-! ## How a round ends -/

/-- The commands of a loop that are answered when Redis obeys. -/
def Command.Answerable : Command → Prop
  | xreadgroup count => 1 ≤ count
  | xautoclaim minIdleTime _ count => 0 ≤ minIdleTime ∧ 1 ≤ count
  | xpendingRange _ => True
  | xack _ => True
  | xaddDlq _ _ => True
  | sleep _ => True
  | inc _ => True
  | observe _ => True
  | _ => False

def Returns {α : Type} (outcome : Except PyException α) : Prop :=
  ∃ value, outcome = .ok value

/-- Nothing is assumed of the other commands. -/
def Dependable (command : Command) (reply : Except PyException command.Reply) :
    Prop :=
  command.Answerable → Returns reply

/-- The program raises nothing, as long as Redis answers. -/
abbrev Survives {α : Type} (body : App α) : Prop :=
  @Prog.Ends appSig α Dependable body Returns

section Programs

variable {world : World}

theorem survives_perform {command : Command}
    (answerable : command.Answerable) :
    Survives (@Prog.perform appSig command) :=
  Prog.Ends.perform fun _ dependable => dependable answerable

theorem Survives.bind {α β : Type} {body : App α} {next : α → App β}
    (first : Survives body) (rest : ∀ value, Survives (next value)) :
    Survives (body.bind next) := by
  refine Prog.Ends.bind first (fun value _ => rest value) ?_
  intro error returned
  rcases returned with ⟨value, same⟩
  cases same

theorem survives_ret {α : Type} (value : α) :
    Survives (.ret value : App α) :=
  ⟨value, rfl⟩

/-- Whatever the body raises, its handler survives. -/
theorem survives_tryExcept {body : App Unit} {handler : PyException → App Unit}
    (handled : ∀ error, Survives (handler error)) :
    Survives (body.tryExcept handler) :=
  Prog.Ends.tryExcept (Prog.ends_any body) (fun value _ => ⟨value, rfl⟩)
    fun error _ => handled error

theorem survives_deadLetterFields (id : MsgId) (fields : Dict)
    (reason : String) : Survives (deadLetterFields id fields reason) := by
  refine Survives.bind (survives_perform trivial) fun _ => ?_
  exact Survives.bind (survives_perform trivial) fun _ =>
    survives_perform trivial

theorem survives_handleFailure (msg : StreamMessage) (exc : PyException) :
    Survives (handleFailure world msg exc) := by
  have counted : ∀ kind, Survives (App.inc (.eventsFailed kind)) :=
    fun kind => survives_perform trivial
  have buried : ∀ reason kind, Survives ((deadLetter msg reason).bind fun _ =>
      App.inc (.eventsFailed kind)) :=
    fun reason kind => Survives.bind (survives_deadLetterFields _ _ reason)
      fun _ => counted kind
  unfold handleFailure
  split
  · exact buried _ _
  · split
    · split
      · exact buried _ _
      · exact counted _
    · exact buried _ _

theorem survives_handle (msg : StreamMessage) :
    Survives (handle world msg) := by
  refine Survives.bind (survives_perform trivial) fun _ => ?_
  refine Survives.bind (survives_tryExcept (survives_handleFailure msg)) ?_
  exact fun _ => survives_perform trivial

theorem survives_handleAll (messages : List StreamMessage) :
    Survives (Prog.forEach messages (handle world)) :=
  Prog.Ends.forEach ⟨(), rfl⟩ fun msg _ => survives_handle msg

theorem survives_parseEntries (deliveryCounts : MsgId → Nat)
    (entries : List (MsgId × Dict)) :
    Survives (parseEntries world deliveryCounts entries) := by
  induction entries with
  | nil => exact survives_ret []
  | cons entry rest inductionHypothesis =>
      rcases entry with ⟨id, fields⟩
      rw [parseEntries]
      split
      case h_1 exc failed =>
        -- every failure to parse is caught, so nothing is raised again
        rw [if_pos (isParseError_of_parseFields failed)]
        refine Survives.bind (survives_deadLetterFields id fields _) fun _ => ?_
        exact Survives.bind (survives_perform trivial) fun _ =>
          inductionHypothesis
      case h_2 event parsed =>
        exact Survives.bind inductionHypothesis fun messages =>
          survives_ret _

theorem survives_lookUpCounts (deliveryCounts : MsgId → Nat)
    (entries : List (MsgId × Dict)) :
    Survives (lookUpCounts deliveryCounts entries) := by
  induction entries generalizing deliveryCounts with
  | nil => exact survives_ret deliveryCounts
  | cons entry rest inductionHypothesis =>
      refine Survives.bind ?_ fun count => inductionHypothesis _
      exact Survives.bind (survives_perform trivial) fun counts =>
        survives_ret _

theorem survives_consumeRound (batch : 1 ≤ world.settings.batchSize) :
    Survives (consumeRound world) := by
  refine Survives.bind ?_ survives_handleAll
  refine Survives.bind (survives_perform batch) fun entries => ?_
  split
  · exact survives_ret []
  · exact survives_parseEntries _ entries

theorem survives_reclaimRound (batch : 1 ≤ world.settings.batchSize)
    (nonnegative : 0 ≤ world.settings.minIdleMs) :
    Survives (reclaimRound world) := by
  refine Survives.bind (survives_perform trivial) fun _ => ?_
  refine Survives.bind ?_ survives_handleAll
  refine Survives.bind (survives_perform ⟨nonnegative, batch⟩) fun reply => ?_
  split
  · exact survives_ret []
  · exact Survives.bind (survives_lookUpCounts _ _) fun counts =>
      survives_parseEntries counts _

end Programs

/-! ## Runs in which Redis obeys -/

/-- Every Redis command succeeds, and what other programs write to the stream
is text.  The rate service and the database may do what they like, and workers
are killed and started at any time. -/
def redisObeys : AppPermit where
  command _ _ command choice := command.isRedis = true → choice.fate = .ok
  env _ event := ∀ fields, event = .inject fields →
    (decodeFields fields).isSome = true

def State.Grouped (state : State) : Prop :=
  state.redis.group.isSome = true

/-- The group stays, and what is added to the stream is text. -/
structure StaysReadable (before after : State) : Prop where
  grouped : before.Grouped → after.Grouped
  entries : ∃ added,
    after.redis.stream.entries = before.redis.stream.entries ++ added ∧
      ∀ fields ∈ added, (decodeFields fields).isSome = true

section Steps

variable {world : World} {state after : State} {task : Tid}
  {command : Command} {choice : Choice}
  {reply : Except PyException command.Reply}

theorem StaysReadable.of_stream_eq (grouped : state.Grouped → after.Grouped)
    (same : after.redis.stream = state.redis.stream) :
    StaysReadable state after where
  grouped := grouped
  entries := ⟨[], by rw [same, List.append_nil], fun _ member =>
    absurd member List.not_mem_nil⟩

theorem StaysReadable.of_redis_eq (same : after.redis = state.redis) :
    StaysReadable state after :=
  .of_stream_eq (fun grouped => by rwa [State.Grouped, same]) (by rw [same])

theorem StaysReadable.of_add {fields : WireFields}
    (decodes : (decodeFields fields).isSome = true)
    (group : after.redis.group = state.redis.group)
    (longer : after.redis.stream.entries =
      state.redis.stream.entries ++ [fields]) : StaysReadable state after where
  grouped := fun grouped => by rwa [State.Grouped, group]
  entries := by
    refine ⟨[fields], longer, ?_⟩
    intro other member
    rwa [List.mem_singleton.mp member]

theorem StaysReadable.legible (stays : StaysReadable state after)
    (legible : Legible state) : Legible after := by
  rcases stays.entries with ⟨added, longer, decodes⟩
  intro id within
  rw [State.entryFields, longer]
  rw [longer] at within
  by_cases old : id < state.redis.stream.entries.length
  · rw [List.getElem?_append_left old]
    exact legible id old
  · rw [List.getElem?_append_right (Nat.le_of_not_lt old)]
    have inside : id - state.redis.stream.entries.length < added.length := by
      rw [List.length_append] at within
      omega
    rw [List.getElem?_eq_getElem inside]
    exact decodes _ (List.getElem_mem inside)

theorem isSome_decodeFields_encodeFields (fields : Dict) :
    (decodeFields (encodeFields fields)).isSome = true := by
  rw [decodeFields, decodePairs_encodeFields]
  rfl

theorem exec_staysReadable
    (taken : exec world state task command choice = some (reply, after)) :
    StaysReadable state after := by
  by_cases redis : command.isRedis = false
  · exact .of_redis_eq (redis_of_not_isRedis redis taken)
  · cases command with
    | xgroupCreate =>
        rcases exec_xgroupCreate taken with same | ⟨_, created⟩
        · exact .of_redis_eq (by rw [same])
        · rw [created]
          exact .of_stream_eq (fun _ => rfl) rfl
    | xadd fields maxlen =>
        rcases exec_xadd taken with ⟨same, _⟩ | ⟨stream, added, reached, _⟩
        · exact .of_redis_eq (by rw [same])
        · rw [reached]
          refine .of_add (isSome_decodeFields_encodeFields fields) rfl ?_
          rcases added with ⟨_, same⟩ | ⟨limit, trimTo, _, _, same⟩
          · exact congrArg Log.entries same
          · exact congrArg Log.entries same
    | xreadgroup count =>
        rcases exec_xreadgroup taken with ⟨same, _⟩ | ⟨group, _, reached, _⟩
        · exact .of_redis_eq (by rw [same])
        · rw [reached]
          exact .of_stream_eq (fun _ => rfl) rfl
    | xautoclaim minIdleTime startId count =>
        rcases exec_xautoclaim taken with ⟨same, _⟩ | ⟨group, _, reached, _⟩
        · exact .of_redis_eq (by rw [same])
        · rw [reached]
          exact .of_stream_eq (fun _ => rfl) rfl
    | xpendingRange msgId =>
        exact .of_redis_eq (by rw [(exec_xpendingRange taken).1])
    | xack msgId =>
        rcases settle_state taken with same | reached
        · exact .of_redis_eq (by rw [same])
        · rw [reached]
          refine .of_stream_eq ?_ rfl
          intro grouped
          rw [State.Grouped, Redis.xack, Option.isSome_map]
          exact grouped
    | xaddDlq origin fields =>
        rcases settle_state taken with same | reached
        · exact .of_redis_eq (by rw [same])
        · rw [reached]
          exact .of_stream_eq id rfl
    | _ => exact absurd rfl redis

theorem happen_staysReadable {event : Event} {tasks tasksAfter : AppTasks}
    (allowed : redisObeys.env state event)
    (happened : happen world event state tasks = some (after, tasksAfter)) :
    StaysReadable state after := by
  cases event with
  | ask number request =>
      simp only [happen] at happened
      split at happened
      · cases happened
        exact .of_redis_eq rfl
      · cases happened
  | hangUp number =>
      cases happened
      exact .of_redis_eq rfl
  | startWorker name =>
      simp only [happen] at happened
      split at happened
      · cases happened
        exact .of_redis_eq rfl
      · cases happened
  | kill name =>
      cases happened
      exact .of_redis_eq rfl
  | tick milliseconds =>
      cases happened
      exact .of_stream_eq id rfl
  | inject fields =>
      cases happened
      exact .of_add (allowed fields rfl) rfl rfl

/-- With a group, a text stream and valid arguments Redis has an answer. -/
theorem dependable_exec (grouped : state.Grouped) (legible : Legible state)
    (obeys : command.isRedis = true → choice.fate = .ok)
    (taken : exec world state task command choice = some (reply, after)) :
    Dependable command reply := by
  intro answerable
  rcases Option.isSome_iff_exists.mp grouped with ⟨group, found⟩
  cases command with
  | xreadgroup count =>
      have positive : ¬ count < 1 := by
        have valid : 1 ≤ count := answerable
        omega
      have within : ∀ id ∈ group.unread state.redis.stream
          (some count.toNat), id < state.redis.stream.entries.length :=
        fun id member => (Group.mem_unread member).2.2
      rcases legible.decodes within with ⟨entries, decoded⟩
      rw [TxnEvents.exec, obeys rfl] at taken
      have same := (settle_of_ok taken).1
      simp only [Redis.xreadgroup, if_neg positive, found, decoded] at same
      exact ⟨entries, same⟩
  | xautoclaim minIdleTime startId count =>
      have nonnegative : ¬ minIdleTime < 0 := by
        have valid : 0 ≤ minIdleTime := answerable.1
        omega
      have positive : ¬ count < 1 := by
        have valid : 1 ≤ count := answerable.2
        omega
      have within : ∀ id ∈ (group.claimScan state.redis.stream state.redis.now
          minIdleTime.toNat startId count.toNat).claimed,
            id < state.redis.stream.entries.length :=
        fun id member => (Group.live_of_claimed member).2
      rcases legible.decodes within with ⟨entries, decoded⟩
      rw [TxnEvents.exec, obeys rfl] at taken
      have same := (settle_of_ok taken).1
      simp only [Redis.xautoclaim, if_neg nonnegative, if_neg positive, found,
        decoded] at same
      exact ⟨_, same⟩
  | xpendingRange msgId =>
      rw [TxnEvents.exec, obeys rfl] at taken
      have same := (settle_of_ok taken).1
      simp only [Redis.xpendingRange, found] at same
      exact ⟨_, same⟩
  | xack msgId =>
      rw [TxnEvents.exec, obeys rfl] at taken
      exact ⟨(), (settle_of_ok taken).1⟩
  | xaddDlq origin fields =>
      rw [TxnEvents.exec, obeys rfl] at taken
      exact ⟨(), (settle_of_ok taken).1⟩
  | sleep delay =>
      cases taken
      exact ⟨(), rfl⟩
  | inc counter =>
      cases taken
      exact ⟨(), rfl⟩
  | observe note =>
      cases taken
      exact ⟨(), rfl⟩
  | _ => exact answerable.elim

end Steps

/-! ## The loops run on a group -/

/-- A boot that returns has made sure of the group. -/
def founding (world : World) : Discipline (system world) where
  permit := redisObeys
  inv := fun _ => True
  owes := fun _ _ _ => True
  rely := fun _ before after => before.Grouped → after.Grouped
  rely_refl := fun _ _ grouped => grouped
  rely_trans := fun _ _ _ _ early late grouped => late (early grouped)

/-- What the return of a coroutine says. -/
def Founded : Tid → State → Prop
  | .boot _, state => state.Grouped
  | _, _ => True

section Founding

variable {world : World} {task : Tid} {state : State}

theorem founding_guarantee {command : Command} {choice : Choice}
    {reply : Except PyException command.Reply} {before after : State}
    (taken : exec world before task command choice = some (reply, after)) :
    (founding world).Guarantee task command before after :=
  ⟨trivial, trivial, fun _ _ => (exec_staysReadable taken).grouped⟩

/-- Nothing is asked of a program that is no boot. -/
theorem founding_any {α : Type} (body : App α) :
    (founding world).wp task body (fun _ _ => True) state := by
  refine Discipline.wp_of_uses (fun _ _ _ _ _ => trivial) ?_
    (Prog.uses_of_all (fun _ => (trivial : True)) body) trivial
  intro command before choice reply after _ _ _ _ taken
  exact ⟨founding_guarantee taken, trivial⟩

theorem grouped_xgroupCreate {choice : Choice}
    {reply : Except PyException Unit} {after : State}
    (fine : choice.fate = .ok)
    (taken : exec world state task .xgroupCreate choice =
      some (reply, after)) : after.Grouped := by
  rw [exec, fine] at taken
  rw [(settle_of_ok taken).2, Redis.xgroupCreate]
  split
  case h_1 group found => exact Option.isSome_of_mem found
  case h_2 => rfl

theorem founding_ensureGroup :
    (founding world).wp task ensureGroup
      (fun _ after => after.Grouped) state := by
  have created : (founding world).wp task xgroupCreate
      (fun _ after => after.Grouped) state := by
    have stable : (founding world).Stable task fun _ => True :=
      fun _ _ _ _ _ => trivial
    refine wp_ask stable trivial ?_
    intro before choice reply after _ _ permitted taken
    exact ⟨founding_guarantee taken, grouped_xgroupCreate (permitted rfl) taken⟩
  refine Discipline.wp_tryExcept created (fun _ _ grouped => grouped) ?_
  intro error after grouped
  split
  · exact grouped
  · exact grouped

theorem founding_bootWorker :
    (founding world).wp task (bootWorker world)
      (fun outcome after => ∀ value, outcome = .ok value → after.Grouped)
      state := by
  refine Discipline.wp_seq (founding_any (waitUntilReady world)) ?_ ?_
  · intro _ after _
    exact Discipline.wp_mono (fun _ _ grouped _ _ => grouped)
      founding_ensureGroup
  · intro error after _ value same
    cases same

end Founding

section Runs

variable {world : World} {config : AppConfig}

theorem reaches_founded (reaches : Reaches world redisObeys config) :
    (founding world).Good Founded config := by
  have unasked : ∀ {task program state}, (∀ reached, Founded task reached) →
      (founding world).wp task program (Discipline.returns (Founded task))
        state := by
    intro task program state always_
    refine Discipline.wp_mono ?_ (founding_any program)
    intro outcome after _
    cases outcome with
    | ok value => exact always_ after
    | error error => exact trivial
  refine Discipline.sound ?_ ?_ ?_ ?_ reaches
  · intro task before after moved _ founded
    cases task with
    | boot name => exact moved founded
    | request number => exact trivial
    | consume name => exact trivial
    | reclaim name => exact trivial
  · refine ⟨trivial, ?_⟩
    intro task program running
    cases running
  · intro finished state tasks _ _ _ _ task program current
    refine (next_cases current).imp_right fun follows => ?_
    cases follows with
    | consumeAgain name => exact unasked fun _ => trivial
    | reclaimAgain name => exact unasked fun _ => trivial
    | consumeFirst name => exact unasked fun _ => trivial
    | reclaimFirst name => exact unasked fun _ => trivial
  · intro event before tasks after tasksAfter _ _ allowed happened
    refine ⟨trivial, ?_⟩
    intro task program running
    refine (happen_tasks happened running).imp ?_ ?_
    · intro same
      exact ⟨same.1, (happen_staysReadable allowed happened).grouped⟩
    · intro begins
      cases begins with
      | serve number request => exact unasked fun _ => trivial
      | boot name =>
          refine Discipline.wp_mono ?_ founding_bootWorker
          intro outcome reached founded
          cases outcome with
          | ok value => exact founded value rfl
          | error error => exact trivial

/-- The coroutines that run for ever. -/
def Tid.Loops : Tid → Prop
  | .consume _ => True
  | .reclaim _ => True
  | _ => False

theorem Begins.not_loops {event : Event} {task : Tid} {program : App Unit}
    (begins : Begins world event task program) : ¬ task.Loops := by
  cases begins with
  | serve number request => exact id
  | boot name => exact id

/-- Whenever a loop runs, the group exists and the stream is text. -/
theorem reaches_served (reaches : Reaches world redisObeys config) :
    Legible config.shared ∧
      ∀ task, task.Loops → (config.tasks task).isSome = true →
        config.shared.Grouped := by
  induction reaches with
  | start =>
      refine ⟨?_, ?_⟩
      · intro id within
        cases within
      · intro task _ running
        cases running
  | @step before last action earlier allowed taken inductionHypothesis =>
      rcases inductionHypothesis with ⟨legible, grouped⟩
      cases System.step_cases taken with
      | @ran actor choice command resume reply reached mine executed same =>
          rw [same]
          have stays := exec_staysReadable executed
          refine ⟨stays.legible legible, ?_⟩
          intro task loops running
          refine stays.grouped (grouped task loops ?_)
          by_cases own : task = actor
          · rw [own, mine]
            rfl
          · change (Function.update before.tasks actor _ task).isSome = true
              at running
            rwa [Function.update_of_ne own] at running
      | @finished actor returned same =>
          rw [same]
          refine ⟨legible, ?_⟩
          intro task loops running
          rcases Option.isSome_iff_exists.mp running with ⟨program, current⟩
          rcases next_cases current with unchanged | follows
          · exact grouped task loops
              (Option.isSome_iff_exists.mpr ⟨program, unchanged⟩)
          · have founded : Founded actor before.shared :=
              (reaches_founded earlier).2 actor _ returned
            have present : (before.tasks actor).isSome = true := by
              rw [returned]
              rfl
            cases follows with
            | consumeAgain name => exact grouped (.consume name) trivial present
            | reclaimAgain name => exact grouped (.reclaim name) trivial present
            | consumeFirst name => exact founded
            | reclaimFirst name => exact founded
      | happened occurred =>
          have stays := happen_staysReadable allowed occurred
          refine ⟨stays.legible legible, ?_⟩
          intro task loops running
          rcases Option.isSome_iff_exists.mp running with ⟨program, current⟩
          rcases happen_tasks occurred current with ⟨unchanged, _⟩ | begins
          · exact stays.grouped (grouped task loops
              (Option.isSome_iff_exists.mpr ⟨program, unchanged⟩))
          · exact absurd loops begins.not_loops

/-- In every run in which the Redis commands succeed and every entry is text, no
loop ends with an exception. -/
theorem loop_not_raised (batch : 1 ≤ world.settings.batchSize)
    (nonnegative : 0 ≤ world.settings.minIdleMs)
    (reaches : Reaches world redisObeys config) {task : Tid}
    (loops : task.Loops) (error : PyException) :
    config.tasks task ≠ some (.raise error) := by
  let given (task : Tid) (command : Command)
      (reply : Except PyException command.Reply) : Prop :=
    task.Loops → Dependable command reply
  let post (task : Tid) (outcome : Except PyException Unit) : Prop :=
    task.Loops → Returns outcome
  have elsewhere : ∀ task program, ¬ task.Loops →
      @Prog.Ends appSig Unit (given task) program (post task) := by
    intro task program other
    exact (Prog.ends_any program).mono fun _ _ loops => absurd loops other
  have within : ∀ task program, task.Loops → Survives program →
      @Prog.Ends appSig Unit (given task) program (post task) := by
    intro task program loops survives
    exact Prog.Ends.given_mono (fun _ _ dependable => dependable loops)
      (survives.mono fun _ returns _ => returns)
  have ends : ∀ task program, config.tasks task = some program →
      @Prog.Ends appSig Unit (given task) program (post task) := by
    refine System.Reachable.ends ?_ ?_ ?_ ?_ reaches
    · intro before actor command resume choice reply after earlier running
        permitted taken isLoop
      have served := reaches_served earlier
      have present : (before.tasks actor).isSome = true := by
        rw [running]
        rfl
      exact dependable_exec (served.2 actor isLoop present) served.1 permitted
        taken
    · intro actor program running
      cases running
    · intro finished tasks actor program current
      refine (next_cases current).imp_right fun follows => ?_
      cases follows with
      | consumeAgain name =>
          exact within _ _ trivial (survives_consumeRound batch)
      | reclaimAgain name =>
          exact within _ _ trivial (survives_reclaimRound batch nonnegative)
      | consumeFirst name =>
          exact within _ _ trivial (survives_consumeRound batch)
      | reclaimFirst name =>
          exact within _ _ trivial (survives_reclaimRound batch nonnegative)
    · intro event state tasks after tasksAfter actor program happened running
      refine (happen_tasks happened running).imp And.left fun begins => ?_
      exact elsewhere actor program begins.not_loops
  intro raised
  rcases ends task _ raised loops with ⟨value, same⟩
  cases same

/-- Only Redis can stop a worker.  In every run in which the Redis commands
succeed and every entry is text, no consume loop and no reclaim loop ever ends
with an exception, whatever the rate service and the database do, whatever the
entries say and whoever is killed; and the loops run only once the group
exists. -/
theorem only_redis_stops_a_loop (batch : 1 ≤ world.settings.batchSize)
    (nonnegative : 0 ≤ world.settings.minIdleMs)
    (reaches : Reaches world redisObeys config) {task : Tid}
    (loops : task.Loops) :
    (∀ error, config.tasks task ≠ some (.raise error)) ∧
      ((config.tasks task).isSome = true → config.shared.Grouped) :=
  ⟨loop_not_raised batch nonnegative reaches loops,
    (reaches_served reaches).2 task loops⟩

end Runs

/-! ### An outage of the rate service -/

def redisObeysGuard : AppGuard where
  command _ _ command choice :=
    match choice.fate with
    | .ok => true
    | _ => !command.isRedis
  env _ event :=
    match event with
    | .inject fields => (decodeFields fields).isSome
    | _ => true

theorem respects_redisObeysGuard : redisObeysGuard.Respects redisObeys where
  command := by
    intro state task command choice passed redis
    cases fated : choice.fate with
    | ok => rfl
    | failedBefore raised => simp [redisObeysGuard, fated, redis] at passed
    | failedAfter raised => simp [redisObeysGuard, fated, redis] at passed
  env := by
    intro state event passed fields injected
    rw [injected] at passed
    exact passed

/-- The coffee is read while the rate service cannot be reached, and the next
round begins. -/
def readInOutage : List AppAction :=
  post 0 coffee {} ++ launch 0 ++ steps (.consume 0) 22 {} ++
    [.finish (.consume 0)]

theorem only_redis_stops_a_loop_coffee :
    ∃ config, Reaches (coffeeWorld unbounded) redisObeys config ∧
      config.shared.Pending 0 ∧ ∃ program,
        config.tasks (.consume 0) = some program ∧
          (∀ error, program ≠ .raise error) ∧ config.shared.Grouped := by
  have taken : ((system (coffeeWorld unbounded)).run redisObeysGuard start
      readInOutage).any (fun config => showsPending 0 config &&
        (config.tasks (.consume 0)).isSome) = true := by
    decide +kernel
  rcases reaches_of_run respects_redisObeysGuard taken with
    ⟨config, reaches, shown⟩
  rw [Bool.and_eq_true] at shown
  rcases Option.isSome_iff_exists.mp shown.2 with ⟨program, running⟩
  have loops : (Tid.consume 0).Loops := trivial
  rcases only_redis_stops_a_loop (by decide) (by decide) reaches loops with
    ⟨survives, served⟩
  refine ⟨config, reaches, pending_of_shows shown.1, program, running, ?_,
    served shown.2⟩
  intro error same
  rw [same] at running
  exact survives error running

end TxnEvents
