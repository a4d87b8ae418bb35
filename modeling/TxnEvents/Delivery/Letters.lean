import TxnEvents.Delivery.Fates
import TxnEvents.Delivery.Gathering
import TxnEvents.Services.Failures
import TxnEvents.Services.Work

/-!
# Every dead letter explains itself

A dead letter carries the fields of its entry and a reason, and the reason is
the text of what really happened to the entry.
-/

namespace TxnEvents

open Effects Arith Python Streams App

/-! ## Causes -/

/-- Processing the message has ended like this. -/
def ProcessingEnded (state : State) (id : MsgId)
    (outcome : Except PyException Outcome) : Prop :=
  ∃ task, .noted task (.processEnded id outcome) ∈ state.history

/-- What a reason stands for.  Only an entry that does not parse is
dead-lettered without having been processed. -/
inductive Cause (world : World) (state : State) (id : MsgId)
    (original : Dict) : String → Prop
  | unparseable {exc : PyException}
      (fails : parseFields world.unicode world.json original = .error exc) :
      Cause world state id original ("unparseable: " ++ exc.text)
  | permanent {event : TransactionEvent}
      (parsed : parseFields world.unicode world.json original = .ok event)
      (ended : ProcessingEnded state id
        (.error (unknownCurrency world event.currency))) :
      Cause world state id original
        (unknownCurrency world event.currency).text
  | exhausted {event : TransactionEvent} {exc : PyException}
      (parsed : parseFields world.unicode world.json original = .ok event)
      (ended : ProcessingEnded state id (.error exc))
      (outage : exc.cls.isTransient = true) :
      Cause world state id original "max deliveries exceeded"
  | unexpected {event : TransactionEvent} {exc : PyException}
      (parsed : parseFields world.unicode world.json original = .ok event)
      (ended : ProcessingEnded state id (.error exc))
      (foreign : exc.cls.isOwn = false) :
      Cause world state id original ("unexpected error: " ++ exc.text)
  -- the event was processed, and the acknowledgement raised
  | unacknowledged {event : TransactionEvent} {outcome : Outcome}
      {exc : PyException}
      (parsed : parseFields world.unicode world.json original = .ok event)
      (ended : ProcessingEnded state id (.ok outcome))
      (foreign : exc.cls.isOwn = false) :
      Cause world state id original ("unexpected error: " ++ exc.text)

/-- The fields are those of the entry and a reason that has a cause. -/
def Reasoned (world : World) (state : State) (origin : MsgId)
    (fields : Dict) : Prop :=
  ∃ original reason, state.entryFields origin = some original ∧
    fields = original.set "reason" reason ∧
      Cause world state origin original reason

section Growing

variable {world : World} {before after : State}

theorem ProcessingEnded.grow {id : MsgId}
    {outcome : Except PyException Outcome}
    (ended : ProcessingEnded before id outcome) (grows : Grows before after) :
    ProcessingEnded after id outcome := by
  rcases ended with ⟨task, member⟩
  exact ⟨task, grows.history.subset member⟩

theorem Cause.grow {id : MsgId} {original : Dict} {reason : String}
    (cause : Cause world before id original reason)
    (grows : Grows before after) : Cause world after id original reason := by
  cases cause with
  | unparseable fails => exact .unparseable fails
  | permanent parsed ended => exact .permanent parsed (ended.grow grows)
  | exhausted parsed ended outage =>
      exact .exhausted parsed (ended.grow grows) outage
  | unexpected parsed ended foreign =>
      exact .unexpected parsed (ended.grow grows) foreign
  | unacknowledged parsed ended foreign =>
      exact .unacknowledged parsed (ended.grow grows) foreign

theorem Reasoned.lasting (world : World) (origin : MsgId) (fields : Dict) :
    Lasting fun state => Reasoned world state origin fields := by
  intro before after grows explained
  rcases explained with ⟨original, reason, entry, same, cause⟩
  exact ⟨original, reason, grows.entryFields entry, same, cause.grow grows⟩

end Growing

/-! ## The discipline -/

/-- What the writer of a dead letter owes. -/
def OwesReason (world : World) (state : State) : Command → Prop
  | .xaddDlq origin fields => Reasoned world state origin fields
  | _ => True

def AllReasoned (world : World) (state : State) : Prop :=
  ∀ letter ∈ state.redis.deadLetters,
    Reasoned world state letter.origin letter.fields

def explaining (world : World) : Discipline (system world) where
  permit := Permit.any
  inv := AllReasoned world
  owes state _ command := OwesReason world state command
  rely _ := Grows
  rely_refl _ := Grows.refl
  rely_trans _ _ _ _ := Grows.trans

section Explaining

variable {world : World} {task : Tid} {state : State} {holds : State → Prop}

theorem AllReasoned.exec {after : State} {command : Command}
    {choice : Choice} {reply : Except PyException command.Reply}
    (all : AllReasoned world state) (owes : OwesReason world state command)
    (taken : exec world state task command choice = some (reply, after)) :
    AllReasoned world after := by
  intro letter member
  have lasting := Reasoned.lasting world letter.origin letter.fields
  have grows := exec_grows taken
  by_cases added : ∃ origin fields, command = .xaddDlq origin fields
  · rcases added with ⟨origin, fields, rfl⟩
    rcases settle_state taken with same | reached
    · rw [same] at member
      exact lasting _ _ grows (all letter member)
    · have appended : after.redis.deadLetters =
          state.redis.deadLetters ++ [⟨origin, fields⟩] := by
        rw [reached, Redis.xaddDlq]
      rw [appended, List.mem_append, List.mem_singleton] at member
      rcases member with old | new
      · exact lasting _ _ grows (all letter old)
      · rw [new]
        exact Reasoned.lasting world origin fields _ _ grows owes
  · rw [deadLetters_of_not_xaddDlq added taken] at member
    exact lasting _ _ grows (all letter member)

theorem explaining_guarantee {before after : State} {command : Command}
    {choice : Choice} {reply : Except PyException command.Reply}
    (all : AllReasoned world before) (owes : OwesReason world before command)
    (taken : exec world before task command choice = some (reply, after)) :
    (explaining world).Guarantee task command before after :=
  ⟨owes, all.exec owes taken, fun _ _ => exec_grows taken⟩

theorem Lasting.explaining_stable (lasting : Lasting holds) :
    (explaining world).Stable task holds :=
  lasting.stable_of_grows fun _ _ grows => grows

theorem explaining_carry {α : Type} {body : App α}
    {post : Except PyException α → State → Prop} (lasting : Lasting holds)
    (current : holds state)
    (right : (explaining world).wp task body post state) :
    (explaining world).wp task body
      (fun outcome after => post outcome after ∧ holds after) state :=
  lasting.carried (fun _ _ grows => grows) current right

/-- The commands that write no dead letter but this one. -/
def Command.Writes (id : MsgId) (fields : Dict) : Command → Prop
  | xaddDlq origin written => origin = id ∧ written = fields
  | _ => True

theorem explaining_writes {α : Type} {body : App α} {id : MsgId}
    {fields : Dict} (uses : body.Uses (Command.Writes id fields))
    (explained : Reasoned world state id fields) :
    (explaining world).wp task body (fun _ _ => True) state := by
  have lasting := Reasoned.lasting world id fields
  refine Discipline.wp_mono (fun _ _ _ => trivial)
    (Discipline.wp_of_uses lasting.explaining_stable ?_ uses explained)
  intro command before choice reply after allowed all held _ taken
  have paid : OwesReason world before command := by
    cases command with
    | xaddDlq origin written =>
        rcases allowed with ⟨sameId, sameFields⟩
        cases sameId
        cases sameFields
        exact held
    | _ => exact trivial
  exact ⟨explaining_guarantee all paid taken,
    lasting _ _ (exec_grows taken) held⟩

theorem writes_deadLetterFields (id : MsgId) (fields : Dict)
    (reason : String) :
    (deadLetterFields id fields reason).Uses
      (Command.Writes id (fields.set "reason" reason)) := by
  apply Prog.Uses.bind (Prog.Uses.perform trivial)
  intro announced
  exact Prog.Uses.bind (Prog.Uses.perform ⟨rfl, rfl⟩) fun _ =>
    Prog.Uses.perform trivial

/-- The commands that write no dead letter. -/
def Command.Silent : Command → Prop
  | xaddDlq _ _ => False
  | _ => True

theorem Command.Silent.owes {command : Command} (silent : command.Silent) :
    OwesReason world state command := by
  cases command with
  | xaddDlq origin fields => exact silent.elim
  | _ => exact trivial

theorem explaining_silent {α : Type} {body : App α}
    (uses : body.Uses Command.Silent) :
    (explaining world).wp task body (fun _ _ => True) state := by
  refine Discipline.wp_of_uses (Lasting.const True).explaining_stable ?_ uses
    trivial
  intro command before choice reply after silent all _ _ taken
  exact ⟨explaining_guarantee all silent.owes taken, trivial⟩

/-- A command that writes no dead letter, with what its replies say. -/
theorem explaining_ask {command : Command}
    {post : Except PyException command.Reply → State → Prop}
    (silent : command.Silent)
    (effect : ∀ before choice reply after,
      exec world before task command choice = some (reply, after) →
        post reply after) :
    (explaining world).wp task (App.ask command) post state := by
  refine wp_ask (Lasting.const True).explaining_stable trivial ?_
  intro before choice reply after all _ _ taken
  exact ⟨explaining_guarantee all silent.owes taken,
    effect before choice reply after taken⟩

/-! ## One delivery -/

/-- Why a delivery of the message has raised the error. -/
inductive RaisedBy (world : World) (msg : StreamMessage) (error : PyException)
    (state : State) : Prop
  | processing (ended : ProcessingEnded state msg.msgId (.error error))
      (possible : ProcessError world msg.event.currency error)
  | acknowledging {outcome : Outcome}
      (ended : ProcessingEnded state msg.msgId (.ok outcome))
      (foreign : error.cls.isOwn = false)

theorem RaisedBy.permanent {msg : StreamMessage} {error : PyException}
    (raised : RaisedBy world msg error state)
    (permanent : error.cls.isPermanent = true) :
    error = unknownCurrency world msg.event.currency ∧
      ProcessingEnded state msg.msgId (.error error) := by
  have own : error.cls.isOwn ≠ false := by
    intro foreign
    rw [ForeignException.not_permanent ⟨error, foreign⟩] at permanent
    cases permanent
  cases raised with
  | processing ended possible =>
      cases possible with
      | outage transient =>
          rw [ExceptionClass.not_permanent_of_transient transient] at permanent
          cases permanent
      | unknown same => exact ⟨same, ended⟩
      | foreign unexpected => exact absurd unexpected own
  | acknowledging ended foreign => exact absurd foreign own

theorem RaisedBy.transient {msg : StreamMessage} {error : PyException}
    (raised : RaisedBy world msg error state)
    (transient : error.cls.isTransient = true) :
    ProcessingEnded state msg.msgId (.error error) := by
  cases raised with
  | processing ended possible => exact ended
  | acknowledging ended foreign =>
      rw [ForeignException.not_transient ⟨error, foreign⟩] at transient
      cases transient

theorem RaisedBy.unexpected {msg : StreamMessage} {error : PyException}
    (entered : Entered world msg state)
    (raised : RaisedBy world msg error state)
    (notPermanent : error.cls.isPermanent ≠ true)
    (notTransient : error.cls.isTransient ≠ true) :
    Cause world state msg.msgId msg.rawFields
      ("unexpected error: " ++ error.text) := by
  cases raised with
  | processing ended possible =>
      cases possible with
      | outage transient => exact absurd transient notTransient
      | unknown same =>
          rw [same] at notPermanent
          exact absurd rfl notPermanent
      | foreign unexpected => exact .unexpected entered.parsed ended unexpected
  | acknowledging ended foreign =>
      exact .unacknowledged entered.parsed ended foreign

theorem explaining_process (event : TransactionEvent) :
    (explaining world).wp task (process world event)
      (fun outcome _ => ∀ error, outcome = .error error →
        ProcessError world event.currency error) state := by
  have silent : (process world event).Uses Command.Silent := by
    refine (works_process world event).mono ?_
    intro command works
    cases command with
    | xaddDlq origin fields => exact works.elim
    | _ => exact trivial
  refine Discipline.wp_mono (fun _ _ reached => reached.2)
    (Discipline.wp_ends ?_ (failsWith_process event)
      (explaining_silent silent))
  intro before command choice reply after taken error same
  rw [same] at taken
  exact error_foreign taken

theorem explaining_processAndAck (msg : StreamMessage) :
    (explaining world).wp task (processAndAck world msg)
      (fun outcome after => ∀ error, outcome = .error error →
        RaisedBy world msg error after) state := by
  refine Discipline.wp_bind.mpr (Discipline.wp_attempt.mpr
    (Discipline.wp_mono ?_ (explaining_process msg.event)))
  intro ended after possible
  have noted : (explaining world).wp task
      (App.observe (.processEnded msg.msgId ended))
      (fun outcome later => outcome = .ok () ∧
        ProcessingEnded later msg.msgId ended) after := by
    refine explaining_ask trivial ?_
    intro before choice reply later taken
    cases taken
    exact ⟨rfl, task, List.mem_cons_self⟩
  refine Discipline.wp_seq noted ?_ ?_
  · intro _ later reached
    cases ended with
    | error error =>
        intro raised same
        cases same
        exact .processing reached.2 (possible error rfl)
    | ok result =>
        have lasting : Lasting fun reached =>
            ProcessingEnded reached msg.msgId (.ok result) :=
          fun _ _ grows ended => ended.grow grows
        have acked : (explaining world).wp task (xack msg.msgId)
            (fun outcome _ => ∀ error, outcome = .error error →
              error.cls.isOwn = false) later := by
          refine explaining_ask trivial ?_
          intro before choice reply left taken error same
          rw [same] at taken
          exact error_foreign taken
        change (explaining world).wp task
          ((xack msg.msgId).bind fun _ => App.inc (.eventsProcessed result))
          _ later
        refine Discipline.wp_seq (explaining_carry lasting reached.2 acked)
          ?_ ?_
        · intro _ left _
          refine explaining_ask trivial ?_
          intro before choice reply last taken error same
          cases taken
          cases same
        · intro error left failed raised same
          cases same
          exact .acknowledging failed.2 (failed.1 error rfl)
  · intro error later impossible
    cases impossible.1

theorem explaining_deadLetter {msg : StreamMessage} {reason : String}
    (kind : FailureKind) (entered : Entered world msg state)
    (cause : Cause world state msg.msgId msg.rawFields reason) :
    (explaining world).wp task
      ((deadLetter msg reason).bind fun _ => App.inc (.eventsFailed kind))
      (fun _ _ => True) state := by
  have explained : Reasoned world state msg.msgId
      (msg.rawFields.set "reason" reason) :=
    ⟨msg.rawFields, reason, entered.entry, rfl, cause⟩
  refine explaining_writes ?_ explained
  exact Prog.Uses.bind (writes_deadLetterFields _ _ _) fun _ =>
    Prog.Uses.perform trivial

theorem explaining_handleFailure {msg : StreamMessage} {error : PyException}
    (entered : Entered world msg state)
    (raised : RaisedBy world msg error state) :
    (explaining world).wp task (handleFailure world msg error)
      (fun _ _ => True) state := by
  unfold handleFailure
  split
  case isTrue permanent =>
    rcases raised.permanent permanent with ⟨same, ended⟩
    refine explaining_deadLetter .permanent entered ?_
    rw [same] at ended ⊢
    exact .permanent entered.parsed ended
  case isFalse notPermanent =>
    split
    case isTrue transient =>
      split
      · exact explaining_deadLetter .exhausted entered
          (.exhausted entered.parsed (raised.transient transient) transient)
      · exact explaining_silent (Prog.Uses.perform trivial)
    case isFalse notTransient =>
      exact explaining_deadLetter .unexpected entered
        (raised.unexpected entered notPermanent notTransient)

theorem explaining_handle {msg : StreamMessage}
    (entered : Entered world msg state) :
    (explaining world).wp task (handle world msg) (fun _ _ => True) state := by
  have lasting := Entered.lasting world msg
  have noted : ∀ note reached, (explaining world).wp task (App.observe note)
      (fun _ _ => True) reached :=
    fun note reached => explaining_ask trivial fun _ _ _ _ _ => trivial
  refine Discipline.wp_seq (explaining_carry lasting entered (noted _ state))
    ?_ (fun _ _ _ => trivial)
  intro _ after held
  have tried : (explaining world).wp task
      ((processAndAck world msg).tryExcept (handleFailure world msg))
      (fun _ _ => True) after := by
    refine Discipline.wp_tryExcept
      (explaining_carry lasting held.2 (explaining_processAndAck msg))
      (fun _ _ _ => trivial) ?_
    intro error later failed
    exact explaining_handleFailure failed.2 (failed.1 error rfl)
  refine Discipline.wp_seq tried ?_ (fun _ _ _ => trivial)
  intro _ later _
  exact noted _ later

theorem explaining_grants : Grants (explaining world) task where
  rely _ _ grows := grows
  asks := by
    intro command gathers before choice reply after all _ taken
    have silent : command.Silent := by
      cases command with
      | xaddDlq origin fields => exact gathers.elim
      | _ => exact trivial
    exact explaining_guarantee all silent.owes taken
  buries := by
    intro id fields exc reached entry failed
    exact explaining_writes (writes_deadLetterFields id fields _)
      ⟨fields, _, entry, rfl, .unparseable failed⟩
  handles _ _ entered := explaining_handle entered

/-! ## Every run -/

theorem Starts.explaining {program : App Unit}
    (starts : Starts world program) :
    (explaining world).wp task program
      (Discipline.returns fun _ => True) state := by
  have right : (TxnEvents.explaining world).wp task program
      (fun _ _ => True) state := by
    cases starts with
    | serve request =>
        refine explaining_silent (uses_serve_of ?_ (fun _ _ => trivial) world
          request)
        intro command routes
        cases command with
        | xaddDlq origin fields => exact routes.elim
        | _ => exact trivial
    | boot =>
        refine explaining_silent ((uses_bootWorker world).mono ?_)
        intro command boots
        cases command with
        | xaddDlq origin fields => exact boots.elim
        | _ => exact trivial
    | consume => exact explaining_grants.consumeRound
    | reclaim => exact explaining_grants.reclaimRound
  refine Discipline.wp_mono ?_ right
  intro outcome reached _
  cases outcome with
  | ok value => exact trivial
  | error error => exact trivial

end Explaining

section Runs

variable {world : World} {permit : AppPermit} {config : AppConfig}

theorem AllReasoned.happen {event : Event} {state after : State}
    {tasks tasksAfter : AppTasks} (all : AllReasoned world state)
    (happened : happen world event state tasks = some (after, tasksAfter)) :
    AllReasoned world after := by
  intro letter member
  rw [happen_deadLetters happened] at member
  exact Reasoned.lasting world _ _ _ _ (happen_grows happened)
    (all letter member)

theorem reaches_reasoned (reaches : Reaches world permit config) :
    (explaining world).Good (fun _ _ => True) config := by
  have freely : Reaches world Permit.any config :=
    System.Reachable.mono (fun _ _ _ _ _ => trivial) (fun _ _ _ => trivial)
      reaches
  refine Discipline.sound ?_ ?_ ?_ ?_ freely
  · exact fun _ _ _ _ _ _ => trivial
  · constructor
    · intro letter member
      cases member
    · intro task program running
      cases running
  · intro finished state tasks _ _ _ _ task program current
    exact (next_cases current).imp_right fun follows =>
      follows.starts.explaining
  · intro event before tasks after tasksAfter _ all _ happened
    refine ⟨all.happen happened, ?_⟩
    intro task program running
    exact (happen_tasks happened running).imp
      (fun same => ⟨same.1, happen_grows happened⟩)
      fun begins => begins.starts.explaining

/-- Every dead letter explains itself.  Whatever fails and whoever is killed, it
consists of the fields of its entry and a reason, which is the text of what
happened to the entry; and a letter that calls the deliveries used up was
delivered that often. -/
theorem letters_explain_themselves (reaches : Reaches world permit config)
    {letter : DeadLetter}
    (member : letter ∈ config.shared.redis.deadLetters) :
    (∃ original reason,
      config.shared.entryFields letter.origin = some original ∧
        letter.fields = original.set "reason" reason ∧
          Cause world config.shared letter.origin original reason) ∧
      (IsExhausted letter → world.settings.maxDeliveries ≤
        deliveries config.shared.history letter.origin) :=
  ⟨(reaches_reasoned reaches).1 letter member,
    fun exhausted => (used_of_isExhausted reaches member exhausted).1⟩

end Runs

theorem letters_explain_themselves_coffee :
    ∃ config, Reaches (coffeeWorld impatient) Permit.any config ∧
      ∃ letter ∈ config.shared.redis.deadLetters, IsExhausted letter ∧
        2 ≤ deliveries config.shared.history letter.origin ∧
          Reasoned (coffeeWorld impatient) config.shared letter.origin
            letter.fields := by
  have taken : ((system (coffeeWorld impatient)).run Guard.any start
      failTwice).any showsExhausted = true := by
    decide +kernel
  rcases reaches_of_run respects_any taken with ⟨config, reaches, shown⟩
  rcases List.any_eq_true.mp shown with ⟨letter, member, facts⟩
  have exhausted : IsExhausted letter :=
    of_decide_eq_true (Bool.and_eq_true_iff.mp facts).1
  have explained := letters_explain_themselves reaches member
  exact ⟨config, reaches, letter, member, exhausted,
    explained.2 exhausted, explained.1⟩

end TxnEvents
