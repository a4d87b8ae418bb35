import TxnEvents.Delivery.Gathering
import TxnEvents.Ledger.Deserving

/-!
# The fate of an entry

With healthy services, whether an entry is stored or dead-lettered is decided
by its fields and the rates alone.
-/

namespace TxnEvents

open Effects Arith Python Streams App

section Deserving

variable {world : World} {rates : Rates} {task : Tid} {state : State}

/-! ## One delivery -/

theorem Entered.hopeless {msg : StreamMessage}
    (entered : Entered world msg state)
    (unstorable : storable rates msg.event.toTransactionEventIn = false) :
    Hopeless world rates state msg.msgId := by
  refine ⟨msg.rawFields, entered.entry, ?_⟩
  intro event parsed
  rw [entered.parsed] at parsed
  cases parsed
  exact unstorable

/-- The commands that dead-letter no message but this one. -/
def Command.BuriesAtMost (id : MsgId) : Command → Prop
  | cacheSet _ _ _ => False
  | xaddDlq origin _ => origin = id
  | observe (.processEnded _ _) => False
  | _ => True

theorem deserving_buries {α : Type} {body : App α} {id : MsgId}
    (uses : body.Uses (Command.BuriesAtMost id))
    (hopeless : Hopeless world rates state id) :
    (deserving world rates).wp task body (fun _ _ => True) state := by
  have lasting : Lasting fun reached => Hopeless world rates reached id :=
    fun _ _ grows held => held.grow grows
  refine Discipline.wp_mono (fun _ _ _ => trivial)
    (Discipline.wp_of_uses lasting.deserving_stable ?_ uses hopeless)
  intro command before choice reply after allowed invariant held _ taken
  have paid : OwesDesert world rates before command := by
    cases command with
    | cacheSet currency rate expiresAt => exact allowed.elim
    | xaddDlq origin fields =>
        cases allowed
        exact held
    | observe note =>
        cases note with
        | processEnded id outcome => exact allowed.elim
        | _ => exact trivial
    | _ => exact trivial
  exact ⟨⟨paid, exec_deserving invariant paid taken,
    fun _ _ => exec_grows taken⟩, held.grow (exec_grows taken)⟩

theorem buriesAtMost_deadLetterFields (id : MsgId) (fields : Dict)
    (reason : String) :
    (deadLetterFields id fields reason).Uses (Command.BuriesAtMost id) := by
  apply Prog.Uses.bind (Prog.Uses.perform trivial)
  intro announced
  exact Prog.Uses.bind (Prog.Uses.perform rfl) fun _ =>
    Prog.Uses.perform trivial

theorem buriesAtMost_handleFailure (msg : StreamMessage) (exc : PyException) :
    (handleFailure world msg exc).Uses (Command.BuriesAtMost msg.msgId) := by
  have counted : ∀ kind, (App.inc (.eventsFailed kind)).Uses
      (Command.BuriesAtMost msg.msgId) :=
    fun kind => Prog.Uses.perform trivial
  have buried : ∀ reason kind, ((deadLetter msg reason).bind fun _ =>
      App.inc (.eventsFailed kind)).Uses (Command.BuriesAtMost msg.msgId) :=
    fun reason kind => Prog.Uses.bind
      (buriesAtMost_deadLetterFields _ _ reason) fun _ => counted kind
  unfold handleFailure
  split
  · exact buried _ _
  · split
    · split
      · exact buried _ _
      · exact counted _
    · exact buried _ _

theorem deserving_xack (id : MsgId) :
    (deserving world rates).wp task (xack id)
      (fun outcome _ => outcome = .ok ()) state := by
  refine deserving_innocent trivial ?_
  intro before choice reply after _ permitted taken
  rw [exec, permitted.1] at taken
  exact (settle_of_ok taken).1

theorem deserving_inc (counter : Counter) :
    (deserving world rates).wp task (App.inc counter)
      (fun outcome _ => outcome = .ok ()) state := by
  refine deserving_innocent trivial ?_
  intro before choice reply after _ _ taken
  cases taken
  rfl

theorem deserving_judge {msg : StreamMessage}
    {ended : Except PyException Outcome} (entered : Entered world msg state)
    (decided :
      ended.isOk = storable rates msg.event.toTransactionEventIn) :
    (deserving world rates).wp task
      (App.observe (.processEnded msg.msgId ended))
      (fun outcome _ => outcome = .ok ()) state := by
  refine deserving_ask (Entered.lasting world msg) entered ?_ ?_
  · intro before _ held
    exact ⟨msg.rawFields, msg.event, held.entry, held.parsed, decided⟩
  · intro before choice reply after _ _ _ taken
    cases taken
    rfl

/-- When the message is not acknowledged, its event cannot be stored. -/
theorem deserving_processAndAck {msg : StreamMessage}
    (entered : Entered world msg state) :
    (deserving world rates).wp task (processAndAck world msg)
      (fun outcome _ => ∀ error, outcome = .error error →
        storable rates msg.event.toTransactionEventIn = false) state := by
  refine Discipline.wp_bind.mpr (Discipline.wp_attempt.mpr
    (Discipline.wp_mono ?_ (deserving_carry (Entered.lasting world msg)
      entered (deserving_process msg.event))))
  intro ended after reached
  rcases reached with ⟨decided, still⟩
  refine Discipline.wp_seq (deserving_judge still decided.verdict) ?_ ?_
  · intro _ noted _
    cases ended with
    | error error =>
        intro raised same
        cases same
        exact decided.verdict.symm
    | ok result =>
        change (deserving world rates).wp task
          ((xack msg.msgId).bind fun _ => App.inc (.eventsProcessed result))
          _ noted
        refine Discipline.wp_seq (deserving_xack msg.msgId) ?_ ?_
        · intro _ acked _
          refine Discipline.wp_mono ?_ (deserving_inc _)
          intro outcome last same error failed
          rw [same] at failed
          cases failed
        · intro error acked impossible
          cases impossible
  · intro error noted impossible
    cases impossible

theorem deserving_handle {msg : StreamMessage}
    (entered : Entered world msg state) :
    (deserving world rates).wp task (handle world msg) (fun _ _ => True)
      state := by
  have lasting := Entered.lasting world msg
  refine Discipline.wp_seq
    (deserving_carry lasting entered (deserving_observe trivial)) ?_
    (fun _ _ _ => trivial)
  intro _ after held
  have tried : (deserving world rates).wp task
      ((processAndAck world msg).tryExcept (handleFailure world msg))
      (fun _ _ => True) after := by
    refine Discipline.wp_tryExcept
      (deserving_carry lasting held.2 (deserving_processAndAck held.2))
      (fun _ _ _ => trivial) ?_
    intro error later failed
    exact deserving_buries (buriesAtMost_handleFailure msg error)
      (failed.2.hopeless (failed.1 error rfl))
  refine Discipline.wp_seq tried ?_ (fun _ _ _ => trivial)
  intro _ later _
  exact Discipline.wp_mono (fun _ _ _ => trivial) (deserving_observe trivial)

theorem deserving_grants : Grants (deserving world rates) task where
  rely _ _ grows := grows
  asks := by
    intro command gathers before choice reply after invariant _ taken
    have innocent : command.Innocent := by
      cases command with
      | cacheSet currency rate expiresAt => exact gathers.elim
      | xaddDlq origin fields => exact gathers.elim
      | observe note =>
          cases note with
          | processEnded id outcome => exact gathers.elim
          | _ => exact trivial
      | _ => exact trivial
    exact ⟨innocent.owes, exec_deserving invariant innocent.owes taken,
      fun _ _ => exec_grows taken⟩
  buries := by
    intro id fields exc reached entry failed
    have hopeless : Hopeless world rates reached id := by
      refine ⟨fields, entry, ?_⟩
      intro event parsed
      rw [failed] at parsed
      cases parsed
    exact deserving_buries (buriesAtMost_deadLetterFields id fields _) hopeless
  handles _ _ entered := deserving_handle entered

/-! ## Every run with healthy services -/

theorem Starts.deserving {program : App Unit} (starts : Starts world program) :
    (deserving world rates).wp task program
      (Discipline.returns fun _ => True) state := by
  have right : (TxnEvents.deserving world rates).wp task program
      (fun _ _ => True) state := by
    cases starts with
    | serve request =>
        refine deserving_uses (uses_serve_of ?_ (fun _ _ => trivial) world
          request)
        intro command routes
        cases command with
        | observe note => exact routes.elim
        | cacheSet currency rate expiresAt => exact routes.elim
        | xaddDlq origin fields => exact routes.elim
        | _ => exact trivial
    | boot =>
        refine deserving_uses ((uses_bootWorker world).mono ?_)
        intro command boots
        cases command with
        | observe note => exact boots.elim
        | cacheSet currency rate expiresAt => exact boots.elim
        | xaddDlq origin fields => exact boots.elim
        | _ => exact trivial
    | consume => exact deserving_grants.consumeRound
    | reclaim => exact deserving_grants.reclaimRound
  refine Discipline.wp_mono ?_ right
  intro outcome reached _
  cases outcome with
  | ok value => exact trivial
  | error error => exact trivial

end Deserving

section Runs

variable {world : World} {rates : Rates} {config : AppConfig}

theorem Deserving.initial : Deserving world rates State.initial where
  caches := by
    intro process currency rate expiresAt found
    cases found
  letters := by
    intro letter member
    cases member

theorem reaches_deserving (reaches : Reaches world (healthy rates) config) :
    (deserving world rates).Good (fun _ _ => True) config := by
  refine Discipline.sound ?_ ?_ ?_ ?_ reaches
  · exact fun _ _ _ _ _ _ => trivial
  · refine ⟨Deserving.initial, ?_⟩
    intro task program running
    cases running
  · intro finished state tasks _ _ _ _ task program current
    exact (next_cases current).imp_right fun follows =>
      follows.starts.deserving
  · intro event before tasks after tasksAfter _ held _ happened
    refine ⟨happen_deserving held happened, ?_⟩
    intro task program running
    exact (happen_tasks happened running).imp
      (fun same => ⟨same.1, happen_grows happened⟩)
      fun begins => begins.starts.deserving

/-- With healthy services the fate of an entry is decided by its fields and the
rates alone.  However often it is delivered and whoever processes it,
processing succeeds exactly if its event can be stored; and no entry is
dead-lettered that parses and can be stored. -/
theorem fate_is_decided (reaches : Reaches world (healthy rates) config) :
    (∀ task id outcome,
      .noted task (.processEnded id outcome) ∈ config.shared.history →
        Judged world rates config.shared id outcome) ∧
      ∀ letter ∈ config.shared.redis.deadLetters,
        Hopeless world rates config.shared letter.origin := by
  let holds (state : State) : Prop := ∀ task id outcome,
    .noted task (.processEnded id outcome) ∈ state.history →
      Judged world rates state id outcome
  have judged : holds config.shared := by
    refine Discipline.invariant (fun _ reached => reaches_deserving reached)
      (fun _ _ _ _ permitted => permitted) ?_ ?_ ?_ reaches
    · intro task id outcome member
      cases member
    · intro before task command resume choice reply after _ _ _ _ owes taken
        held actor id outcome member
      have grows := exec_grows taken
      rcases noted_cases taken member with old | ⟨_, same⟩
      · exact (held actor id outcome old).grow grows
      · rw [same] at owes
        exact Judged.grow owes grows
    · intro before event after tasksAfter _ _ _ happened held actor id outcome
        member
      exact (held actor id outcome (mem_of_happen happened rfl member)).grow
        (happen_grows happened)
  exact ⟨judged, (reaches_deserving reaches).1.letters⟩

end Runs

/-! ## One event that is stored and one that is not -/

/-- Every command succeeds, and only the euro has a rate. -/
def healthyGuard : AppGuard where
  command _ _ command choice :=
    match choice.fate, command, choice.http with
    | .ok, .httpGet currency, .answered response =>
        if currency = "EUR" then
          decide (response.statusCode = 200 ∧
            response.rate.toOption = some (.finite false 11 (-1)))
        else decide (response.statusCode = 404)
    | .ok, .httpGet _, _ => false
    | .ok, _, _ => true
    | _, _, _ => false
  env _ _ := true

theorem fine_of_healthyGuard {state : State} {task : Tid} {command : Command}
    {choice : Choice}
    (passed : healthyGuard.command state task command choice = true) :
    choice.fate = .ok := by
  cases fated : choice.fate with
  | ok => rfl
  | failedBefore raised => simp [healthyGuard, fated] at passed
  | failedAfter raised => simp [healthyGuard, fated] at passed

theorem respects_healthyGuard : healthyGuard.Respects (healthy euroRates) where
  command := by
    intro state task command choice passed
    have fine := fine_of_healthyGuard passed
    refine ⟨fine, ?_⟩
    intro currency same
    rw [same] at passed
    cases outcome : choice.http with
    | raised error => simp [healthyGuard, fine, outcome] at passed
    | answered response =>
        refine ⟨response, rfl, ?_⟩
        simp only [healthyGuard, fine, outcome] at passed
        by_cases euro : currency = "EUR"
        · rw [if_pos euro, decide_eq_true_eq] at passed
          have known : euroRates currency = some (.finite false 11 (-1)) := by
            rw [euroRates, if_pos euro]
          rw [known]
          refine ⟨passed.1, ?_⟩
          cases given : response.rate with
          | error error =>
              rw [given] at passed
              cases passed.2
          | ok rate =>
              rw [given] at passed
              cases passed.2
              rfl
        · rw [if_neg euro, decide_eq_true_eq] at passed
          have unknown : euroRates currency = none := by
            rw [euroRates, if_neg euro]
          rw [unknown]
          have outside : ¬ (200 ≤ response.statusCode ∧
              response.statusCode < 300) := by
            omega
          exact ⟨by omega, if_neg outside⟩
  env := fun _ _ _ => trivial

/-- The coffee and an entry without a payload, both processed. -/
def storeOneBuryOne : List AppAction :=
  post 0 coffee {} ++ [.env (.inject emptyEntry)] ++ launch 0 ++
    steps (.consume 0) 18 (answering (.finite false 11 (-1)))

theorem fate_is_decided_coffee :
    ∃ config, Reaches (coffeeWorld unbounded) (healthy euroRates) config ∧
      Judged (coffeeWorld unbounded) euroRates config.shared 0
        (.ok .processed) ∧
      Buried config.shared 1 ∧
      Hopeless (coffeeWorld unbounded) euroRates config.shared 1 := by
  have taken : ((system (coffeeWorld unbounded)).run healthyGuard start
      storeOneBuryOne).any (fun config =>
        config.shared.history.contains
            (.noted (.consume 0) (.processEnded 0 (.ok .processed))) &&
          config.shared.redis.deadLetters.any fun letter =>
            decide (letter.origin = 1)) = true := by decide +kernel
  rcases reaches_of_run respects_healthyGuard taken with
    ⟨config, reaches, shown⟩
  rw [Bool.and_eq_true] at shown
  rcases List.any_eq_true.mp shown.2 with ⟨letter, member, origin⟩
  have decided := fate_is_decided reaches
  have first := of_decide_eq_true origin
  refine ⟨config, reaches,
    decided.1 _ _ _ (List.contains_iff_mem.mp shown.1),
    ⟨letter, member, first⟩, ?_⟩
  rw [← first]
  exact decided.2 letter member

end TxnEvents
