import TxnEvents.Delivery.Recovery
import TxnEvents.Effects.Prompt

/-!
# No insert waits for ever

An insert waits while another transaction has inserted the same id.  A worker
commits at once what it has inserted, so whoever waits, waits for a single
commit, and nothing can keep that commit from being tried.
-/

namespace TxnEvents

open Effects Python Streams App

/-! ## An insert is followed by its commit -/

/-- A statement that was executed has to be committed next. -/
def commitsNext : (command : Command) → Except PyException command.Reply →
    Option Command
  | .execute _, .ok _ => some .commit
  | _, _ => none

/-- A command whose answers call for nothing. -/
def Command.Settled (command : Command) : Prop :=
  ∀ reply, commitsNext command reply = none

theorem settled_of_not_execute {command : Command}
    (other : ∀ row, command ≠ .execute row) : command.Settled := by
  intro reply
  cases command with
  | execute row => exact absurd rfl (other row)
  | _ => rfl

abbrev Commits {α : Type} (body : App α) : Prop :=
  @Prog.Prompt appSig α commitsNext body

section Programs

variable {world : World}

theorem commits_of_settled {α : Type} {body : App α} {allowed : Command → Prop}
    (uses : body.Uses allowed)
    (settled : ∀ row, ¬ allowed (.execute row)) : Commits body := by
  refine Prog.Prompt.of_uses (uses.mono ?_)
  intro command may
  apply settled_of_not_execute
  intro row same
  rw [same] at may
  exact settled row may

theorem commits_perform {command : Command}
    (other : ∀ row, command ≠ .execute row) :
    Commits (@Prog.perform appSig command) :=
  Prog.Prompt.of_uses (Prog.Uses.perform (settled_of_not_execute other))

/-- The statement and its commit. -/
theorem commits_insertIgnoreDuplicate (row : ProcessedTransaction) :
    Commits (insertIgnoreDuplicate row) := by
  have rest : ∀ inserted : Bool, Commits
      ((App.commit.bind fun _ => .ret inserted : App Bool)) :=
    fun inserted => Prog.Prompt.bind (commits_perform (by simp)) fun _ =>
      trivial
  refine Prog.Prompt.bind (Prog.Prompt.tryExcept ?_ ?_) ?_
  · intro reply
    cases reply with
    | error error =>
        refine ⟨?_, trivial⟩
        intro next called
        cases called
    | ok inserted => exact ⟨fun _ called => called, rest inserted⟩
  · intro error
    exact Prog.Prompt.of_uses (uses_reraiseClassified error)
  · intro inserted
    exact Prog.Prompt.bind (commits_perform (by simp)) fun _ => trivial

theorem commits_retryAsync {α : Type} {fn : App α}
    {retryOn : ExceptionClass → Bool} {onRetry : OnRetry}
    (inside : Commits fn)
    (callback : ∀ attempt exc delay, Commits (onRetry attempt exc delay))
    (attempts : Int) (baseDelay maxDelay : ℚ) :
    Commits (retryAsync fn attempts baseDelay maxDelay retryOn onRetry) := by
  have loop : ∀ remaining attempt : Nat,
      Commits (retryFrom fn attempts baseDelay maxDelay retryOn onRetry attempt
        remaining) := by
    intro remaining
    induction remaining with
    | zero => exact fun _ => trivial
    | succ remaining inductionHypothesis =>
        intro attempt
        refine Prog.Prompt.bind inside.attempt ?_
        intro outcome
        cases outcome with
        | ok value => exact trivial
        | error exc =>
            simp only
            split
            · exact trivial
            · split
              · exact trivial
              · refine Prog.Prompt.bind ?_ ?_
                · exact Prog.Prompt.of_uses
                    (uses_computeDelay (fun _ => rfl) attempt baseDelay
                      maxDelay)
                · intro delay
                  refine Prog.Prompt.bind (callback attempt exc delay) ?_
                  intro _
                  refine Prog.Prompt.bind (commits_perform (by simp)) ?_
                  intro _
                  exact inductionHypothesis (attempt + 1)
  unfold retryAsync
  split
  · exact trivial
  · exact loop attempts.toNat 1

theorem commits_process (event : TransactionEvent) :
    Commits (process world event) := by
  have counted : ∀ operation attempt exc delay,
      Commits (onRetry operation attempt exc delay) :=
    fun _ _ _ _ => commits_perform (by simp)
  refine Prog.Prompt.bind (commits_retryAsync ?_ (counted _) _ _ _) ?_
  · exact commits_of_settled (looksUp_getRate world event.currency)
      fun _ looksUp => looksUp
  · intro rate?
    refine Prog.Prompt.bind (Prog.Prompt.ofExcept _) ?_
    intro amounts
    refine Prog.Prompt.bind ?_ ?_
    · exact Prog.Prompt.bind (commits_perform (by simp)) fun _ => trivial
    · intro processedAt
      refine Prog.Prompt.bind (commits_retryAsync
        (commits_insertIgnoreDuplicate _) (counted _) _ _ _) ?_
      intro inserted
      split
      · exact trivial
      · exact trivial

theorem commits_handle (msg : StreamMessage) : Commits (handle world msg) := by
  have buried : ∀ reason kind, Commits ((deadLetter msg reason).bind fun _ =>
      App.inc (.eventsFailed kind)) := by
    intro reason kind
    refine Prog.Prompt.bind ?_ fun _ => commits_perform (by simp)
    refine Prog.Prompt.bind (commits_perform (by simp)) fun _ => ?_
    exact Prog.Prompt.bind (commits_perform (by simp)) fun _ =>
      commits_perform (by simp)
  have failed : ∀ exc, Commits (handleFailure world msg exc) := by
    intro exc
    unfold handleFailure
    split
    · exact buried _ _
    · split
      · split
        · exact buried _ _
        · exact commits_perform (by simp)
      · exact buried _ _
  have acked : Commits (processAndAck world msg) := by
    refine Prog.Prompt.bind (commits_process msg.event).attempt fun ended => ?_
    refine Prog.Prompt.bind (commits_perform (by simp)) fun _ => ?_
    refine Prog.Prompt.bind (Prog.Prompt.ofExcept ended) fun outcome => ?_
    exact Prog.Prompt.bind (commits_perform (by simp)) fun _ =>
      commits_perform (by simp)
  refine Prog.Prompt.bind (commits_perform (by simp)) fun _ => ?_
  exact Prog.Prompt.bind (Prog.Prompt.tryExcept acked failed) fun _ =>
    commits_perform (by simp)

theorem commits_parseEntries (deliveryCounts : MsgId → Nat)
    (entries : List (MsgId × Dict)) :
    Commits (parseEntries world deliveryCounts entries) :=
  commits_of_settled (uses_parseEntries world deliveryCounts entries)
    fun _ buries => buries

/-- Every program of the system commits what it inserts. -/
theorem Starts.commits {program : App Unit} (starts : Starts world program) :
    Commits program := by
  cases starts with
  | serve request =>
      let insertsNothing (command : Command) : Prop :=
        ∀ row, command ≠ .execute row
      have uses : (TxnEvents.serve world request).Uses insertsNothing := by
        refine uses_serve_of ?_ ?_ world request
        · intro command routes row same
          rw [same] at routes
          exact routes
        · intro asked response row same
          cases same
      exact commits_of_settled uses fun row may => may row rfl
  | boot =>
      exact commits_of_settled (uses_bootWorker world) fun _ boots => boots
  | consume =>
      refine Prog.Prompt.bind ?_ fun messages =>
        Prog.Prompt.forEach fun msg _ => commits_handle msg
      refine Prog.Prompt.bind (commits_perform (by simp)) fun entries => ?_
      split
      · exact trivial
      · exact commits_parseEntries _ _
  | reclaim =>
      refine Prog.Prompt.bind (commits_perform (by simp)) fun _ => ?_
      refine Prog.Prompt.bind ?_ fun messages =>
        Prog.Prompt.forEach fun msg _ => commits_handle msg
      exact commits_of_settled (uses_claimStale world _) fun _ claims => claims

end Programs

/-! ## Whoever has a transaction open commits it next -/

section Runs

variable {world : World} {permit : AppPermit} {config : AppConfig}

theorem reaches_commits (reaches : Reaches world permit config) :
    ∀ task program, config.tasks task = some program → Commits program := by
  refine System.Reachable.programs
    (fun _ _ _ _ _ reply _ _ _ _ _ prompt => (prompt reply).2) ?_ ?_ ?_
    reaches
  · intro task program running
    cases running
  · intro finished tasks task program running
    exact (next_cases running).imp_right fun follows => follows.starts.commits
  · intro event state tasks after tasksAfter task program happened running
    exact (happen_tasks happened running).imp And.left
      fun begins => begins.starts.commits

/-- What the task issues next. -/
def AppConfig.upNext (config : AppConfig) (task : Tid) : Option Command :=
  (config.tasks task).bind Prog.head

/-- Every open transaction is about to be committed. -/
def Committing (config : AppConfig) : Prop :=
  ∀ entry ∈ config.shared.db.uncommitted,
    AppConfig.upNext config entry.task = some .commit

/-- A commit closes the transaction of the task, however it ends. -/
theorem uncommitted_commit {state after : State} {task : Tid}
    {choice : Choice} {reply : Except PyException Unit}
    (taken : exec world state task .commit choice = some (reply, after))
    {entry : Uncommitted} (member : entry ∈ after.db.uncommitted) :
    entry ∈ state.db.uncommitted ∧ entry.task ≠ task := by
  have rolledBack : entry ∈ (state.rollback task).db.uncommitted →
      entry ∈ state.db.uncommitted ∧ entry.task ≠ task := by
    intro kept
    have facts := List.mem_filter.mp kept
    exact ⟨facts.1, of_decide_eq_true facts.2⟩
  have unopened : ∀ left : State, left.db.uncommitted = state.db.uncommitted →
      (state.db.uncommitted.find? fun other => other.task = task) = none →
        entry ∈ left.db.uncommitted →
          entry ∈ state.db.uncommitted ∧ entry.task ≠ task := by
    intro left same none_ kept
    rw [same] at kept
    have other := List.find?_eq_none.mp none_ entry kept
    exact ⟨kept, by simpa using other⟩
  rcases exec_commit taken with ⟨_, same⟩ | ⟨_, same | same⟩
  · rw [same] at member
    unfold Db.acknowledged at member
    split at member
    case h_1 none_ => exact unopened state rfl none_ member
    case h_2 own found =>
      unfold Db.committed at member
      rw [found] at member
      exact rolledBack member
  · rw [same] at member
    exact rolledBack member
  · rw [same] at member
    unfold Db.committed at member
    split at member
    case h_1 none_ => exact unopened state rfl none_ member
    case h_2 own found => exact rolledBack member

/-- After a command of a task its open transaction is a new one, which it has
to commit now, or one that it had before. -/
theorem own_uncommitted_exec {state after : State} {task : Tid}
    {command : Command} {choice : Choice}
    {reply : Except PyException command.Reply}
    (taken : exec world state task command choice = some (reply, after))
    {entry : Uncommitted} (member : entry ∈ after.db.uncommitted)
    (own : entry.task = task) :
    commitsNext command reply = some .commit ∨
      entry ∈ state.db.uncommitted ∧ command ≠ .commit := by
  by_cases commits : command = .commit
  · subst commits
    exact absurd own (uncommitted_commit taken member).2
  · by_cases inserts : ∃ row, command = .execute row
    · rcases inserts with ⟨row, rfl⟩
      have dropped : entry ∉ (state.rollback task).db.uncommitted := by
        intro kept
        exact of_decide_eq_true (List.mem_filter.mp kept).2 own
      rcases exec_execute taken with
        ⟨same, _⟩ | ⟨same, _⟩ | ⟨_, reached⟩
      · rw [same]
        exact Or.inl rfl
      · rw [same]
        exact Or.inl rfl
      · rw [reached] at member
        exact absurd member dropped
    · rcases uncommitted_exec taken member with old | ⟨_, inserted⟩
      · exact Or.inr ⟨old, commits⟩
      · exact absurd inserted inserts

/-- The return of a coroutine leaves what other tasks have to run. -/
theorem next_of_running {tasks : AppTasks} {finished task : Tid}
    {program : App Unit} (alone : Alone tasks)
    (returned : tasks finished = some (.ret ()))
    (running : tasks task = some program) (other : task ≠ finished) :
    next world finished tasks task = some program := by
  cases finished with
  | request number => rw [next, Function.update_of_ne other, running]
  | consume name => rw [next, Function.update_of_ne other, running]
  | reclaim name => rw [next, Function.update_of_ne other, running]
  | boot name =>
      have booted : tasks (.boot name) ≠ none := by
        rw [returned]
        exact Option.some_ne_none _
      rcases alone name booted with ⟨consume, reclaim⟩
      have notReclaim : task ≠ .reclaim name := by
        intro same
        rw [same, reclaim] at running
        cases running
      have notConsume : task ≠ .consume name := by
        intro same
        rw [same, consume] at running
        cases running
      rw [next, Function.update_of_ne notReclaim,
        Function.update_of_ne notConsume, Function.update_of_ne other, running]

theorem Committing.happen {event : Event} {state after : State}
    {tasks tasksAfter : AppTasks} (committing : Committing ⟨state, tasks⟩)
    (crewed : RowsOfWorkers state)
    (happened : happen world event state tasks = some (after, tasksAfter)) :
    Committing ⟨after, tasksAfter⟩ := by
  intro entry member
  have open_ : entry ∈ state.db.uncommitted :=
    uncommitted_happen happened member
  have before := committing entry open_
  rcases crewed entry open_ with ⟨worker, works⟩
  have notRequest : ∀ number, entry.task ≠ .request number := by
    intro number same
    rw [same] at works
    cases works
  have spared : tasksAfter entry.task = tasks entry.task →
      AppConfig.upNext ⟨after, tasksAfter⟩ entry.task = some .commit := by
    intro same
    simp only [AppConfig.upNext] at before ⊢
    rw [same, before]
  cases event with
  | ask number request =>
      simp only [TxnEvents.happen] at happened
      split at happened
      · cases happened
        exact spared (Function.update_of_ne (notRequest number) _ _)
      · cases happened
  | hangUp number =>
      cases happened
      exact spared (Function.update_of_ne (notRequest number) _ _)
  | startWorker name =>
      simp only [TxnEvents.happen] at happened
      split at happened
      case isTrue idle =>
        cases happened
        apply spared
        refine Function.update_of_ne ?_ _ _
        intro same
        have none_ : tasks (.boot name) = none :=
          Option.isNone_iff_eq_none.mp idle.1
        simp only [AppConfig.upNext, same, none_] at before
        cases before
      case isFalse => cases happened
  | kill name =>
      cases happened
      apply spared
      have elsewhere := of_decide_eq_true (List.mem_filter.mp member).2
      exact if_neg elsewhere
  | tick passed =>
      cases happened
      exact spared rfl
  | inject fields =>
      cases happened
      exact spared rfl

theorem reaches_committing (reaches : Reaches world permit config) :
    Committing config := by
  induction reaches with
  | start =>
      intro entry member
      cases member
  | @step before last action earlier allowed taken inductionHypothesis =>
      intro entry member
      cases System.step_cases taken with
      | @ran actor choice command resume reply reached mine executed same =>
          rw [same] at member ⊢
          simp only [AppConfig.upNext] at inductionHypothesis ⊢
          by_cases own : entry.task = actor
          · rw [own, Function.update_self, Option.bind_some]
            rcases own_uncommitted_exec executed member own with
              called | ⟨old, other⟩
            · exact ((reaches_commits earlier actor _ mine) reply).1 _ called
            · have heads := inductionHypothesis entry old
              rw [AppConfig.upNext, own, mine] at heads
              cases heads
              exact absurd rfl other
          · rw [Function.update_of_ne own]
            rcases uncommitted_exec executed member with old | ⟨mine_, _⟩
            · exact inductionHypothesis entry old
            · exact absurd mine_ own
      | @finished actor returned same =>
          rw [same] at member ⊢
          have heads := inductionHypothesis entry member
          rw [AppConfig.upNext] at heads
          rcases Option.bind_eq_some_iff.mp heads with
            ⟨program, running, first⟩
          have other : entry.task ≠ actor := by
            intro own
            rw [own, returned] at running
            cases running
            cases first
          have kept : next world actor before.tasks entry.task =
              some program :=
            next_of_running (reaches_manned earlier).alone returned running
              other
          rw [AppConfig.upNext]
          change (next world actor before.tasks entry.task).bind _ = _
          rw [kept, Option.bind_some, first]
      | happened occurred =>
          exact Committing.happen inductionHypothesis
            (reaches_rowsOfWorkers earlier) occurred entry member

/-! ## Waiting -/

/-- With healthy services the command can be executed now. -/
def Enabled (world : World) (rates : Rates) (state : State) (task : Tid)
    (command : Command) : Prop :=
  ∃ choice reply after,
    (recovering rates).command state task command choice ∧
      exec world state task command choice = some (reply, after)

theorem enabled_of_free {rates : Rates} {state : State} {task : Tid}
    {command : Command}
    (free : ∀ row stored, command = .execute row →
      row.toColumns (world.localZone task.process) = .ok stored →
        ¬ state.Blocked task stored.id) :
    Enabled world rates state task command := by
  have executes : ∃ reply after, exec world state task command
      (obliging (answerOf rates) state task command) = some (reply, after) :=
    obliging_executes free
  rcases executes with ⟨reply, after, taken⟩
  exact ⟨_, reply, after,
    (serving_recovering rates).obliging state task command, taken⟩

/-- Whoever waits, waits for a single commit.  In every state of every run,
every command of every task can be executed, or it is an insert that waits for
another task whose next command is a commit; that commit can be executed with
any outcome, and then the insert can be, whatever the outcome was. -/
theorem waits_for_one_commit (rates : Rates)
    (reaches : Reaches world permit config) (task : Tid) (command : Command) :
    Enabled world rates config.shared task command ∨
      ∃ other, other ≠ task ∧ AppConfig.upNext config other = some .commit ∧
        ∀ choice, ∃ reply after,
          exec world config.shared other .commit choice =
              some (reply, after) ∧
            Enabled world rates after task command := by
  by_cases blocked : ∃ row stored, command = .execute row ∧
      row.toColumns (world.localZone task.process) = .ok stored ∧
        config.shared.Blocked task stored.id
  · rcases blocked with
      ⟨row, stored, same, accepted, entry, member, elsewhere, sameId⟩
    refine Or.inr ⟨entry.task, elsewhere,
      reaches_committing reaches entry member, ?_⟩
    intro choice
    have taken : exec world config.shared entry.task .commit choice =
      some (Db.commit config.shared entry.task choice.fate) := rfl
    refine ⟨_, _, taken, enabled_of_free ?_⟩
    intro otherRow otherStored sameCommand otherAccepted stillBlocked
    rw [same] at sameCommand
    cases sameCommand
    rw [accepted] at otherAccepted
    cases otherAccepted
    rcases stillBlocked with ⟨left, leftMember, _, leftId⟩
    rcases uncommitted_commit taken leftMember with ⟨old, different⟩
    have unique := (reaches_safe_of_any reaches).db.openUnique
    have equal : left = entry :=
      List.inj_on_of_nodup_map unique old member (leftId.trans sameId.symm)
    rw [equal] at different
    exact different rfl
  · left
    apply enabled_of_free
    intro row stored same accepted isBlocked
    exact blocked ⟨row, stored, same, accepted, isBlocked⟩

end Runs

/-! ### Two workers with the same event -/

/-- The second worker waits with its insert. -/
def showsWaiting (world : World) (config : AppConfig) : Bool :=
  match config.tasks (.consume 1) with
  | some (.call (.execute row) _) =>
      (Db.execute world config.shared (.consume 1) row .ok).isNone
  | _ => false

theorem waiting_of_shows {world : World} {config : AppConfig}
    (shown : showsWaiting world config = true) :
    ∃ row resume,
      config.tasks (.consume 1) = some (.call (.execute row) resume) ∧
        ∀ rates, ¬ Enabled world rates config.shared (.consume 1)
          (.execute row) := by
  unfold showsWaiting at shown
  split at shown
  case h_1 row resume current =>
    refine ⟨row, resume, current, ?_⟩
    intro rates enabled
    rcases enabled with ⟨choice, reply, after, permitted, taken⟩
    rw [exec, permitted.1, Option.isNone_iff_eq_none.mp shown] at taken
    cases taken
  case h_2 => cases shown

/-- The same event is published twice, and two workers get to its insert; the
first one has not committed yet. -/
def insertTwice : List AppAction :=
  post 0 coffee {} ++ post 1 coffee {} ++ launch 0 ++ launch 1 ++
    steps (.consume 0) 8 (answering (.finite false 11 (-1))) ++
      steps (.consume 1) 7 (answering (.finite false 11 (-1)))

theorem exists_waiting :
    ∃ config, Reaches (coffeeWorld frugal) Permit.any config ∧
      showsWaiting (coffeeWorld frugal) config = true := by
  have taken : ((system (coffeeWorld frugal)).run Guard.any start
      insertTwice).any (showsWaiting (coffeeWorld frugal)) = true := by
    decide +kernel
  exact reaches_of_run respects_any taken

theorem waits_for_one_commit_coffee :
    ∃ config row, Reaches (coffeeWorld frugal) Permit.any config ∧
      ¬ Enabled (coffeeWorld frugal) euroRates config.shared (.consume 1)
        (.execute row) ∧
      ∃ other, other ≠ .consume 1 ∧
        AppConfig.upNext config other = some .commit := by
  rcases exists_waiting with ⟨config, reaches, shown⟩
  rcases waiting_of_shows shown with ⟨row, _, _, waits⟩
  refine ⟨config, row, reaches, waits euroRates, ?_⟩
  rcases waits_for_one_commit euroRates reaches (.consume 1) (.execute row) with
    enabled | ⟨other, elsewhere, upNext, _⟩
  · exact absurd enabled (waits euroRates)
  · exact ⟨other, elsewhere, upNext⟩

/-! ## Every task can finish -/

section Finishing

variable {world : World} {permit : AppPermit} {config : AppConfig}

/-- Runs in which the services are healthy and nothing happens but what the
tasks do. -/
def unaided (rates : Rates) : AppPermit where
  command := (recovering rates).command
  env _ _ := False

theorem reachable_run {rates : Rates} {task : Tid} {command : Command}
    {resume : Except PyException command.Reply → App Unit} {choice : Choice}
    {reply : Except PyException command.Reply} {after : State}
    (running : config.tasks task = some (.call command resume))
    (permitted :
      (recovering rates).command config.shared task command choice)
    (taken : exec world config.shared task command choice =
      some (reply, after)) :
    (system world).Reachable (unaided rates) config
      ⟨after, Function.update config.tasks task (some (resume reply))⟩ := by
  have allowed : (unaided rates).Allows config (.run task choice) := by
    intro issued next current
    rw [running] at current
    cases current
    exact permitted
  refine System.Reachable.start.step allowed ?_
  simp only [System.step, running]
  change (exec world config.shared task command choice).map _ = _
  rw [taken]
  rfl

theorem reaches_onward {rates : Rates} {after : AppConfig}
    (reaches : Reaches world Permit.any config)
    (onward : (system world).Reachable (unaided rates) config after) :
    Reaches world Permit.any after :=
  System.Reachable.trans reaches
    (System.Reachable.mono (fun _ _ _ _ _ => trivial) (fun _ _ _ => trivial)
      onward)

/-- The next command of a task can be executed after at most one step of
another task. -/
theorem exists_step (rates : Rates) (reaches : Reaches world Permit.any config)
    {task : Tid} {command : Command}
    {resume : Except PyException command.Reply → App Unit}
    (running : config.tasks task = some (.call command resume)) :
    ∃ after reply, (system world).Reachable (unaided rates) config after ∧
      after.tasks task = some (resume reply) := by
  rcases waits_for_one_commit rates reaches task command with
    ⟨choice, reply, after, permitted, taken⟩ |
      ⟨other, elsewhere, upNext, commits⟩
  · exact ⟨_, reply, reachable_run running permitted taken,
      Function.update_self ..⟩
  · rcases Option.bind_eq_some_iff.mp upNext with ⟨program, theirs, heads⟩
    cases program with
    | ret value => cases heads
    | raise error => cases heads
    | call first rest =>
        cases heads
        rcases commits {} with
          ⟨committed, middle, done, choice, reply, after, permitted, taken⟩
        have fine : (recovering rates).command config.shared other .commit
            {} := ⟨rfl, fun _ different => nomatch different⟩
        have early := reachable_run theirs fine done
        let between : AppConfig :=
          ⟨middle, Function.update config.tasks other (some (rest committed))⟩
        have still : between.tasks task = some (.call command resume) := by
          rw [← running]
          exact Function.update_of_ne (Ne.symm elsewhere) _ _
        have late := reachable_run still permitted taken
        exact ⟨_, reply, early.trans late, Function.update_self ..⟩

/-- No task is ever stuck.  From every state of every run, whatever has failed
and whoever was killed, with healthy services each running task gets to the end
of its round, and nobody has to be killed or started for it. -/
theorem every_task_can_finish (rates : Rates)
    (reaches : Reaches world permit config) {task : Tid} {program : App Unit}
    (running : config.tasks task = some program) :
    ∃ after outcome,
      (system world).Reachable (unaided rates) config after ∧
        after.tasks task = some (Prog.ofExcept outcome) := by
  have freely : Reaches world Permit.any config :=
    System.Reachable.mono (fun _ _ _ _ _ => trivial) (fun _ _ _ => trivial)
      reaches
  clear reaches
  induction program generalizing config with
  | ret value => exact ⟨config, .ok value, System.Reachable.start, running⟩
  | raise error =>
      exact ⟨config, .error error, System.Reachable.start, running⟩
  | call command resume inductionHypothesis =>
      rcases exists_step rates freely running with
        ⟨middle, reply, onward, goesOn⟩
      rcases inductionHypothesis reply goesOn
          (reaches_onward freely onward) with
        ⟨after, outcome, later, ended⟩
      exact ⟨after, outcome, onward.trans later, ended⟩

end Finishing

theorem every_task_can_finish_coffee :
    ∃ config, Reaches (coffeeWorld frugal) Permit.any config ∧
      showsWaiting (coffeeWorld frugal) config = true ∧
        ∃ after outcome,
          (system (coffeeWorld frugal)).Reachable (unaided euroRates) config
              after ∧
            after.tasks (.consume 1) = some (Prog.ofExcept outcome) := by
  rcases exists_waiting with ⟨config, reaches, shown⟩
  rcases waiting_of_shows shown with ⟨row, resume, running, _⟩
  exact ⟨config, reaches, shown,
    every_task_can_finish euroRates reaches running⟩

end TxnEvents
