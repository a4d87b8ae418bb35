import TxnEvents.Delivery.Handover

/-!
# The delivery counts that reads and claims report

A claim and the lookups of its counts are separate commands, and others may
claim and acknowledge in between.  Whatever they do, a reported count is at
most the number of deliveries so far, and it falls short of the delivery it
came with only when the entry has left the pending list.
-/

namespace TxnEvents

open Effects Python Streams App

/-! ## What others may do -/

/-- Any commands of these tasks, however they turn out, and any events that
kill none of the other tasks. -/
inductive Interferes (world : World) (who : Tid → Prop) :
    State → State → Prop where
  | refl (state : State) : Interferes world who state state
  | command {before met after : State} {task : Tid} {command : Command}
      {choice : Choice} {reply : Except PyException command.Reply} :
      Interferes world who before met → who task →
        exec world met task command choice = some (reply, after) →
          Interferes world who before after
  | event {before met after : State} {event : Event}
      {tasks tasksAfter : AppTasks} :
      Interferes world who before met →
        (∀ task, ¬ who task → ¬ event.Kills task) →
          happen world event met tasks = some (after, tasksAfter) →
            Interferes world who before after

section Interferes

variable {world : World} {who : Tid → Prop} {before met after : State}

theorem Interferes.counted
    (interferes : Interferes world who before after)
    (counted : Counted before) : Counted after := by
  induction interferes with
  | refl => exact counted
  | command _ _ taken inductionHypothesis =>
      exact exec_counted inductionHypothesis taken
  | event _ _ happened inductionHypothesis =>
      exact happen_counted inductionHypothesis happened

theorem Interferes.others
    (interferes : Interferes world who before after)
    {task : Tid}
    (elsewhere : ¬ who task) : Others task before after := by
  induction interferes with
  | refl => exact Others.refl task before
  | @command _ _ actor _ _ _ _ acting taken inductionHypothesis =>
      have different : task ≠ actor := by
        intro same
        rw [same] at elsewhere
        exact elsewhere acting
      exact inductionHypothesis.trans (exec_others different taken)
  | event _ spares happened inductionHypothesis =>
      exact inductionHypothesis.trans
        (happen_others (spares task elsewhere) happened)

/-- Every run of the system is such an interference from the start. -/
theorem interferes_of_reaches
    {permit : AppPermit}
    {config : AppConfig}
    (reaches : Reaches world permit config) :
    Interferes world (fun _ => True) State.initial config.shared := by
  apply System.Reachable.invariant_shared (Interferes.refl _) _ _ reaches
  · intro state task command choice reply reached interferes _ taken
    exact interferes.command trivial taken
  · intro state event tasks reached tasksAfter interferes _ happened
    exact interferes.event (fun _ impossible => absurd trivial impossible)
      happened

theorem Interferes.trans
    {first second third : State}
    (early : Interferes world who first second)
    (late : Interferes world who second third) :
    Interferes world who first third := by
  induction late with
  | refl => exact early
  | command _ acting taken inductionHypothesis =>
      exact inductionHypothesis.command acting taken
  | event _ spares happened inductionHypothesis =>
      exact inductionHypothesis.event spares happened

/-- In a run, a task executes its program among the other tasks. -/
theorem executes_among_of_continues
    {permit : AppPermit}
    {task : Tid}
    {started config : AppConfig}
    {program : App Unit}
    (continues : (system world).Continues permit task started config)
    (running : started.tasks task = some program) :
    ∃ trace left, config.tasks task = some left ∧
      program.Leads trace left ∧
        Executes ((system world).performs permit task)
          (Interferes world fun other => other ≠ task)
          started.shared trace config.shared := by
  apply continues.executes Interferes.refl
    (fun _ _ _ => Interferes.trans) _ running
  intro before action after left isLeft stillLeft _ taken elsewhere
  have nothing : Interferes world (fun other => other ≠ task) before.shared
      before.shared := Interferes.refl before.shared
  cases System.step_cases taken with
  | @ran actor choice _ _ _ _ _ executed same =>
      rw [same]
      apply nothing.command _ executed
      intro own
      rw [own] at elsewhere
      exact elsewhere choice rfl
  | finished _ same =>
      rw [same]
      exact nothing
  | @happened event occurred =>
      apply nothing.event _ occurred
      intro other isTask
      rw [not_not.mp isTask]
      exact spared_of_running occurred stillLeft

end Interferes

/-! ## While nothing is delivered to a task -/

/-- The state has grown, and nothing was delivered to the task. -/
structure KeepsOrdinals (task : Tid) (before after : State) : Prop where
  grows : Grows before after
  ordinal : ∀ id, lastOrdinal task id after.history =
    lastOrdinal task id before.history

section KeepsOrdinals

variable {world : World} {task : Tid} {before met after : State}

theorem KeepsOrdinals.refl (state : State) : KeepsOrdinals task state state where
  grows := Grows.refl state
  ordinal := fun _ => rfl

theorem KeepsOrdinals.trans
    (early : KeepsOrdinals task before met)
    (late : KeepsOrdinals task met after) : KeepsOrdinals task before after where
  grows := early.grows.trans late.grows
  ordinal := fun id => (late.ordinal id).trans (early.ordinal id)

theorem Others.keepsOrdinals
    (others : Others task before after) : KeepsOrdinals task before after where
  grows := others.toGrows
  ordinal := by
    intro id
    rcases others.own with ⟨newer, history, elsewhere⟩
    rw [history, lastOrdinal_append_of_others elsewhere]

theorem keepsOrdinals_exec
    {command : Command}
    {choice : Choice}
    {reply : Except PyException command.Reply}
    (quiet : command.delivers = false)
    (taken : exec world before task command choice = some (reply, after)) :
    KeepsOrdinals task before after where
  grows := exec_grows taken
  ordinal := by
    intro id
    rcases history_cases quiet taken with
      same | ⟨currency, rate, _, _, answered⟩ | ⟨note, _, noted⟩
    · rw [same]
    · rw [answered, lastOrdinal]
    · rw [noted, lastOrdinal]

end KeepsOrdinals

/-! ## Counts that do not overstate -/

/-- The count is right for a delivery to the task that came after `since`. -/
structure CountsFor
    (task : Tid)
    (since : State)
    (id count : Nat)
    (state : State) : Prop where
  positive : 1 ≤ count
  noMore : count ≤ deliveries state.history id
  recent : deliveries since.history id < lastOrdinal task id state.history
  retired : count < lastOrdinal task id state.history → state.Retired id

/-- The message was delivered to the task after `since`. -/
structure GivenSince
    (task : Tid)
    (since : State)
    (id : Nat)
    (state : State) : Prop where
  handedOut : state.HandedOut id
  recent : deliveries since.history id < lastOrdinal task id state.history

section Counts

variable {world : World} {task : Tid} {since before after : State}
  {id count : Nat}

theorem CountsFor.lasting
    (counts : CountsFor task since id count before)
    (keeps : KeepsOrdinals task before after) :
    CountsFor task since id count after where
  positive := counts.positive
  noMore := counts.noMore.trans
    (deliveries_le_of_suffix keeps.grows.history id)
  recent := by
    rw [keeps.ordinal]
    exact counts.recent
  retired := by
    rw [keeps.ordinal]
    exact fun short => keeps.grows.retired id (counts.retired short)

theorem GivenSince.lasting
    (given : GivenSince task since id before)
    (keeps : KeepsOrdinals task before after) :
    GivenSince task since id after where
  handedOut := keeps.grows.handedOut id given.handedOut
  recent := by
    rw [keeps.ordinal]
    exact given.recent

/-- Everything is delivered by these ids at once. -/
theorem givenSince_handOut
    {group : Group}
    {ids : List MsgId}
    (grows : Grows since before)
    (nodup : ids.Nodup)
    (below : id < group.lastDelivered)
    (member : id ∈ ids) :
    GivenSince task since id (before.handOut task group ids) where
  handedOut := ⟨group, rfl, below⟩
  recent := by
    have earlier := deliveries_le_of_suffix grows.history id
    have ordinal : lastOrdinal task id (before.handOut task group ids).history =
        deliveries before.history id + 1 := by
      rw [State.handOut, State.deliver, lastOrdinal_deliver nodup,
        if_pos ⟨rfl, member⟩]
    omega

/-- The first delivery of a message is the one that a read reports. -/
theorem countsFor_one
    (given : GivenSince task since id after)
    (first : deliveries after.history id = 1) :
    CountsFor task since id 1 after where
  positive := Nat.le_refl 1
  noMore := Nat.le_of_eq first.symm
  recent := given.recent
  retired := by
    intro short
    have bound := lastOrdinal_le_deliveries task id after.history
    omega

/-- The lookup of one count. -/
theorem countsFor_of_xpendingRange
    {choice : Choice}
    {counts : List Nat}
    (counted : Counted before)
    (given : GivenSince task since id before)
    (taken :
      exec world before task (.xpendingRange id) choice =
        some (.ok counts, after)) :
    CountsFor task since id (counts.headD 1) after := by
  rcases exec_xpendingRange taken with ⟨same, replied⟩
  rcases replied counts rfl with ⟨group, found, answered⟩
  have bound := lastOrdinal_le_deliveries task id before.history
  have recent := given.recent
  rw [same, answered]
  cases looked : group.timesDelivered? id with
  | none =>
      have gone : before.Retired id := by
        refine ⟨given.handedOut, ?_⟩
        rintro ⟨other, otherFound, pending⟩
        rw [found] at otherFound
        cases otherFound
        exact Group.timesDelivered?_eq_none looked pending
      have reported : (Option.none : Option Nat).toList.headD 1 = 1 := rfl
      rw [reported]
      exact ⟨Nat.le_refl 1, by omega, recent, fun _ => gone⟩
  | some times =>
      rcases Group.timesDelivered?_eq_some looked with
        ⟨entry, member, sameId, sameCount⟩
      have exactly : times = deliveries before.history id := by
        rw [← sameCount, ← sameId]
        exact counted.exact group found entry member
      have reported : (Option.some times).toList.headD 1 = times := rfl
      rw [reported, exactly]
      refine ⟨by omega, Nat.le_refl _, recent, ?_⟩
      intro short
      omega

end Counts

/-! ## Reads and claims among others -/

/-- The task runs the program among others, and any of its own commands may
fail. -/
abbrev RunsAmong {α : Type} (world : World) (task : Tid) (body : App α)
    (before : State) (outcome : Except PyException α) (after : State) : Prop :=
  body.Runs ((system world).performs Permit.any task)
    (Interferes world fun other => other ≠ task) before outcome after

section Runs

variable {α : Type} {world : World} {task : Tid} {body : App α}
  {since before after : State} {outcome : Except PyException α} {id : Nat}

theorem RunsAmong.counted
    (runs : RunsAmong world task body before outcome after)
    (counted : Counted before) : Counted after := by
  rcases runs with ⟨trace, _, executes⟩
  apply executes.preserves Counted _ _ counted
  · intro first second interferes
    exact interferes.counted
  · rintro met command reply left ⟨choice, _, taken⟩ _ current
    exact exec_counted current taken

theorem RunsAmong.keepsOrdinals
    (runs : RunsAmong world task body before outcome after)
    (quiet : body.Uses fun command : Command => command.delivers = false) :
    KeepsOrdinals task before after := by
  apply Prog.Runs.preserves (KeepsOrdinals task before) runs quiet
  · intro first second interferes keeps
    exact keeps.trans (interferes.others (by simp)).keepsOrdinals
  · rintro met command reply left quietly ⟨choice, _, taken⟩ keeps
    exact keeps.trans (keepsOrdinals_exec quietly taken)
  · exact KeepsOrdinals.refl before

/-- A command of the task, and what the others do around it. -/
theorem RunsAmong.ask
    {command : Command}
    {outcome : Except PyException command.Reply}
    (runs : RunsAmong world task (App.ask command) before outcome after) :
    ∃ met choice left, (Counted before → Counted met) ∧
      KeepsOrdinals task before met ∧
        exec world met task command choice = some (outcome, left) ∧
          KeepsOrdinals task left after := by
  have elsewhere : ¬ (fun other => other ≠ task) task := by simp
  rcases Prog.Runs.perform runs with
    ⟨met, left, moved, ⟨choice, _, taken⟩, rested⟩
  exact ⟨met, choice, left, moved.counted,
    (moved.others elsewhere).keepsOrdinals, taken,
    (rested.others elsewhere).keepsOrdinals⟩

theorem RunsAmong.ret
    {value : α}
    (runs : RunsAmong world task (.ret value) before outcome after) :
    outcome = .ok value ∧ KeepsOrdinals task before after := by
  rcases Prog.Runs.ret runs with ⟨same, rested⟩
  exact ⟨same, (rested.others (by simp)).keepsOrdinals⟩

theorem RunsAmong.bind
    {β : Type}
    {next : α → App β}
    {value : β}
    (runs : RunsAmong world task (body.bind next) before (.ok value) after) :
    ∃ result middle, RunsAmong world task body before (.ok result) middle ∧
      RunsAmong world task (next result) middle (.ok value) after := by
  rcases Prog.Runs.bind Interferes.refl runs with
    ⟨result, middle, first, later⟩ | ⟨_, impossible, _⟩
  · exact ⟨result, middle, first, later⟩
  · cases impossible

theorem quiet_deliveryCount :
    (deliveryCount id).Uses fun command : Command => command.delivers = false :=
  Prog.Uses.bind (Prog.Uses.perform rfl) fun _ => trivial

theorem countsFor_of_deliveryCount
    {count : Nat}
    (counted : Counted before)
    (given : GivenSince task since id before)
    (runs : RunsAmong world task (deliveryCount id) before (.ok count) after) :
    CountsFor task since id count after := by
  rcases RunsAmong.bind runs with ⟨entries, middle, asked, returned⟩
  rcases RunsAmong.ask asked with
    ⟨met, choice, left, countedMet, moved, taken, rested⟩
  rcases RunsAmong.ret returned with ⟨same, restedOn⟩
  cases same
  have counts : CountsFor task since id (entries.headD 1) left :=
    countsFor_of_xpendingRange (countedMet counted) (given.lasting moved) taken
  exact (counts.lasting rested).lasting restedOn

/-- The lookups, by induction on the entries that remain. -/
theorem countsFor_of_lookUpCounts
    {entries : List (MsgId × Dict)}
    {deliveryCounts counts : MsgId → Nat}
    (counted : Counted before)
    (given : ∀ entry ∈ entries, GivenSince task since entry.1 before)
    (runs :
      RunsAmong world task (lookUpCounts deliveryCounts entries) before
        (.ok counts) after) :
    (∀ entry ∈ entries, CountsFor task since entry.1 (counts entry.1) after) ∧
      ∀ id, CountsFor task since id (deliveryCounts id) before →
        CountsFor task since id (counts id) after := by
  induction entries generalizing deliveryCounts before with
  | nil =>
      rcases RunsAmong.ret runs with ⟨same, rested⟩
      cases same
      refine ⟨by simp, ?_⟩
      intro id countsFor
      exact countsFor.lasting rested
  | cons entry rest inductionHypothesis =>
      rcases entry with ⟨msgId, fields⟩
      rcases RunsAmong.bind runs with ⟨count, middle, looked, later⟩
      have here : CountsFor task since msgId count middle :=
        countsFor_of_deliveryCount counted
          (given (msgId, fields) List.mem_cons_self) looked
      have keeps : KeepsOrdinals task before middle :=
        RunsAmong.keepsOrdinals looked quiet_deliveryCount
      have givenLater :
          ∀ entry ∈ rest, GivenSince task since entry.1 middle :=
        fun other member =>
          (given other (List.mem_cons_of_mem _ member)).lasting keeps
      rcases inductionHypothesis (RunsAmong.counted looked counted)
          givenLater later with
        ⟨restCounts, keptCounts⟩
      have hereLater : CountsFor task since msgId (counts msgId) after := by
        apply keptCounts msgId
        rw [Function.update_self]
        exact here
      constructor
      · intro other member
        rcases List.mem_cons.mp member with same | inRest
        · rw [same]
          exact hereLater
        · exact restCounts other inRest
      · intro id countsFor
        by_cases same : id = msgId
        · rw [same]
          exact hereLater
        · apply keptCounts id
          rw [Function.update_of_ne same]
          exact countsFor.lasting keeps

/-- Parsing reports the counts that it is given. -/
theorem countsFor_of_parseEntries
    {entries : List (MsgId × Dict)}
    {deliveryCounts : MsgId → Nat}
    {messages : List StreamMessage}
    (counts : ∀ entry ∈ entries,
      CountsFor task since entry.1 (deliveryCounts entry.1) before)
    (runs :
      RunsAmong world task (parseEntries world deliveryCounts entries) before
        (.ok messages) after) :
    ∀ msg ∈ messages,
      CountsFor task since msg.msgId msg.deliveryCount after := by
  have keeps : KeepsOrdinals task before after :=
    RunsAmong.keepsOrdinals runs
      ((uses_parseEntries world deliveryCounts entries).mono fun _ buries =>
        buries.quiet)
  rcases runs with ⟨trace, played, _⟩
  intro msg member
  rw [plays_parseEntries played] at member
  rcases List.mem_filterMap.mp member with ⟨entry, inside, made⟩
  rw [messageOf] at made
  split at made
  · cases made
    exact (counts entry inside).lasting keeps
  · cases made

/-- What a read hands out is delivered for the first time. -/
theorem countsFor_of_xreadgroup
    {count : Int}
    {choice : Choice}
    {entries : List (MsgId × Dict)}
    (grows : Grows since before)
    (counted : Counted before)
    (taken :
      exec world before task (.xreadgroup count) choice =
        some (.ok entries, after)) :
    ∀ entry ∈ entries, CountsFor task since entry.1 1 after := by
  rcases exec_xreadgroup taken with
    ⟨_, _, impossible⟩ | ⟨group, found, reached, decodes⟩
  · cases impossible
  · have ids := decodeEntries_ids (decodes entries rfl)
    intro entry member
    have unread : entry.1 ∈
        group.unread before.redis.stream (some count.toNat) := by
      rw [← ids]
      exact List.mem_map_of_mem member
    have nodup := Group.unread_nodup group before.redis.stream
      (some count.toNat)
    have pending := (Group.pending_read_iff group before.redis.stream
      (some count.toNat) before.redis.now entry.1).mpr (Or.inr unread)
    have given : GivenSince task since entry.1 after := by
      rw [reached]
      exact givenSince_handOut grows nodup pending.lt_lastDelivered unread
    apply countsFor_one given
    have notHandedOut : ¬ before.HandedOut entry.1 := by
      rintro ⟨other, otherFound, below⟩
      rw [found] at otherFound
      cases otherFound
      have bound := (Group.mem_unread unread).1
      omega
    rw [reached, deliveries_handOut nodup, if_pos unread,
      counted.fresh entry.1 notHandedOut]

theorem givenSince_of_xautoclaim
    {minIdleMs count : Int}
    {startId : MsgId}
    {choice : Choice}
    {reply : ClaimReply}
    (grows : Grows since before)
    (taken :
      exec world before task (.xautoclaim minIdleMs startId count) choice =
        some (.ok reply, after)) :
    ∀ entry ∈ reply.claimed, GivenSince task since entry.1 after := by
  rcases exec_xautoclaim taken with
    ⟨_, _, impossible⟩ | ⟨group, found, reached, decodes⟩
  · cases impossible
  · have ids := decodeEntries_ids (decodes reply rfl)
    intro entry member
    have claimed : entry.1 ∈
        (group.claimScan before.redis.stream before.redis.now
          minIdleMs.toNat startId count.toNat).claimed := by
      rw [← ids]
      exact List.mem_map_of_mem member
    rw [reached]
    exact givenSince_handOut grows Group.claimed_nodup
      (Group.pending_of_claimed claimed).lt_lastDelivered claimed

/-- What a read or a claim reports, from any state whose counters are right. -/
theorem countsFor_of_fetches
    {body : App (List StreamMessage)}
    {messages : List StreamMessage}
    (fetches : Fetches world body)
    (counted : Counted before)
    (runs : RunsAmong world task body before (.ok messages) after) :
    ∀ msg ∈ messages,
      CountsFor task before msg.msgId msg.deliveryCount after := by
  cases fetches with
  | read =>
      rcases RunsAmong.bind runs with ⟨entries, middle, asked, parsing⟩
      rcases RunsAmong.ask asked with
        ⟨met, choice, left, countedMet, moved, taken, rested⟩
      have counts : ∀ entry ∈ entries,
          CountsFor task before entry.1 1 middle := by
        intro entry member
        exact (countsFor_of_xreadgroup moved.grows (countedMet counted) taken
          entry member).lasting rested
      split at parsing
      case isTrue empty =>
        rcases RunsAmong.ret parsing with ⟨same, _⟩
        cases same
        simp
      case isFalse => exact countsFor_of_parseEntries counts parsing
  | claimStale minIdleMs =>
      rcases RunsAmong.bind runs with ⟨reply, middle, asked, looking⟩
      have countedMiddle : Counted middle := RunsAmong.counted asked counted
      rcases RunsAmong.ask asked with
        ⟨met, choice, left, _, moved, taken, rested⟩
      have given : ∀ entry ∈ reply.claimed,
          GivenSince task before entry.1 middle := by
        intro entry member
        exact (givenSince_of_xautoclaim moved.grows taken entry member).lasting
          rested
      split at looking
      case isTrue empty =>
        rcases RunsAmong.ret looking with ⟨same, _⟩
        cases same
        simp
      case isFalse =>
        rcases RunsAmong.bind looking with ⟨counts, later, looked, parsing⟩
        have countsFor :=
          (countsFor_of_lookUpCounts countedMiddle given looked).1
        exact countsFor_of_parseEntries countsFor parsing

end Runs

/-- No reported count exceeds the deliveries so far, and one that falls short
of its own delivery belongs to an entry that is no longer pending; so nothing
is dead-lettered as exhausted before its `max_deliveries` deliveries. -/
theorem delivery_count_never_overstates (world : World) :
    (∀ (task : Tid) (body : App (List StreamMessage)) (before after : State)
        (messages : List StreamMessage),
      Fetches world body →
        Interferes world (fun _ => True) State.initial before →
          RunsAmong world task body before (.ok messages) after →
            ∀ msg ∈ messages,
              1 ≤ msg.deliveryCount ∧
                msg.deliveryCount ≤ deliveries after.history msg.msgId ∧
                  deliveries before.history msg.msgId <
                    lastOrdinal task msg.msgId after.history ∧
                  (msg.deliveryCount <
                      lastOrdinal task msg.msgId after.history →
                    ¬ after.Pending msg.msgId)) ∧
      ∀ (permit : AppPermit) (config : AppConfig),
        Reaches world permit config →
          ∀ letter ∈ config.shared.redis.deadLetters, IsExhausted letter →
            world.settings.maxDeliveries ≤
              deliveries config.shared.history letter.origin := by
  constructor
  · intro task body before after messages fetches begun runs msg member
    have counted : Counted before := begun.counted Counted.initial
    have counts := countsFor_of_fetches fetches counted runs msg member
    exact ⟨counts.positive, counts.noMore, counts.recent,
      fun short => (counts.retired short).2⟩
  · intro permit config reaches letter member exhausted
    exact (used_of_isExhausted reaches member exhausted).1

/-- A program alone runs among others that do nothing. -/
theorem runsAmong_of_alone
    {α : Type}
    {world : World}
    {task : Tid}
    {body : App α}
    {before after : State}
    {outcome : Except PyException α}
    (ran :
      body.alone (fun state command => exec world state task command {})
        before = some (outcome, after)) :
    RunsAmong world task body before outcome after := by
  have proper : ∀ met (command : Command) reply left,
      exec world met task command {} = some (reply, left) →
        (system world).performs Permit.any task met command reply left ∧
          True :=
    fun met command reply left taken => ⟨⟨{}, trivial, taken⟩, trivial⟩
  have executed : ∃ trace, body.Plays trace outcome ∧
      Executes ((system world).performs Permit.any task)
        (Interferes world fun other => other ≠ task) before trace after ∧
          ∀ answer : Answer appSig, answer ∈ trace → True :=
    executes_alone Interferes.refl proper ran
  rcases executed with ⟨trace, played, executes, _⟩
  exact ⟨trace, played, executes⟩

/-- The coffee is read, and lost with its worker. -/
def readAndLost : List AppAction :=
  post 0 coffee {} ++ launch 0 ++
    [.run (.consume 0) {}, .env (.kill 0), .env (.tick 15000)]

/-- Whether a claim of the coffee reports a second delivery. -/
def claimsSecond : Except PyException (List StreamMessage) → Bool
  | .ok [msg] => decide (msg.msgId = 0 ∧ msg.deliveryCount = 2)
  | _ => false

theorem delivery_count_never_overstates_coffee :
    ∃ before after msg,
      RunsAmong (coffeeWorld {}) (.reclaim 1)
          (claimStale (coffeeWorld {}) 15000) before (.ok [msg]) after ∧
        msg.deliveryCount = 2 ∧ 2 ≤ deliveries after.history msg.msgId := by
  have taken : ((system (coffeeWorld {})).run Guard.any start readAndLost).any
      (fun config =>
        ((claimStale (coffeeWorld {}) 15000).alone
            (fun state command =>
              exec (coffeeWorld {}) state (.reclaim 1) command {})
            config.shared).any fun ended => claimsSecond ended.1) = true := by
    decide +kernel
  rcases reaches_of_run respects_any taken with ⟨config, reaches, ran⟩
  rcases (Option.any_eq_true _ _).mp ran with ⟨⟨outcome, after⟩, alone, shown⟩
  have runs := runsAmong_of_alone alone
  dsimp only at shown
  unfold claimsSecond at shown
  split at shown
  case h_2 => cases shown
  case h_1 msg =>
    have second := (of_decide_eq_true shown).2
    have counts := (delivery_count_never_overstates (coffeeWorld {})).1
      (.reclaim 1) _ config.shared after [msg] (Fetches.claimStale 15000)
      (interferes_of_reaches reaches) runs msg (List.mem_singleton_self msg)
    rw [second] at counts
    exact ⟨config.shared, after, msg, runs, second, counts.2.1⟩

end TxnEvents
