import TxnEvents.Delivery.Leftovers
import TxnEvents.Queue.Parsing

/-!
# Runs without outages

While the rate service answers and the database obeys, no processing fails for
the time being.  So when no worker is killed and the loops are between their
rounds, the pending list is empty, whatever Redis does.
-/

namespace TxnEvents

open Effects Arith Python App

/-- The rate service answers, not with a server error; the database obeys; no
worker is killed. -/
def steady : AppPermit where
  command _ _ command choice :=
    match command with
    | .httpGet _ => ∃ response, choice.http = .answered response ∧
        response.statusCode < 500
    | .execute _ => choice.fate = .ok
    | .commit => choice.fate = .ok
    | _ => True
  env _ event := ∀ name, event ≠ .kill name

/-- What no task does in a run without outages. -/
def Command.PutsOff : Command → Prop
  | .observe (.processEnded _ (.error error)) => error.cls.isTransient = true
  | _ => False

/-- No processing ends in a transient failure. -/
def steadily (world : World) : Discipline (system world) where
  permit := steady
  inv := fun _ => True
  owes := fun _ _ command => ¬ command.PutsOff
  rely := fun _ _ _ => True
  rely_refl := fun _ _ => trivial
  rely_trans := fun _ _ _ _ _ _ => trivial

section Steadily

variable {world : World} {task : Tid} {state : State}

theorem steadily_guarantee {command : Command} {before after : State}
    (fine : ¬ command.PutsOff) :
    (steadily world).Guarantee task command before after :=
  ⟨fine, trivial, fun _ _ => trivial⟩

theorem steadily_stable : (steadily world).Stable task fun _ => True :=
  fun _ _ _ _ _ => trivial

/-- A command, with what its permitted replies have in common. -/
theorem steadily_ask {command : Command}
    {post : Except PyException command.Reply → State → Prop}
    (fine : ¬ command.PutsOff)
    (replies : ∀ before choice reply after,
      steady.command before task command choice →
        exec world before task command choice = some (reply, after) →
          post reply after) :
    (steadily world).wp task (ask command) post state := by
  refine wp_ask steadily_stable trivial ?_
  intro before choice reply after _ _ permitted taken
  exact ⟨steadily_guarantee fine,
    replies before choice reply after permitted taken⟩

theorem steadily_uses {α : Type} {body : App α} {allowed : Command → Prop}
    (uses : body.Uses allowed)
    (fine : ∀ command, allowed command → ¬ command.PutsOff) :
    (steadily world).wp task body (fun _ _ => True) state := by
  refine Discipline.wp_of_uses steadily_stable ?_ uses trivial
  intro command before choice reply after allows _ _ _ _
  exact ⟨steadily_guarantee (fine command allows), trivial⟩

/-! ## Processing -/

/-- An error, if there is one, is not transient. -/
def Lasts {α : Type} (outcome : Except PyException α) (_ : State) : Prop :=
  ∀ error, outcome = .error error → error.cls.isTransient = false

@[simp]
theorem lasts_ok {α : Type} (value : α) (state : State) :
    Lasts (.ok value : Except PyException α) state :=
  fun _ impossible => nomatch impossible

@[simp]
theorem lasts_error_iff {α : Type} {error : PyException} {state : State} :
    Lasts (.error error : Except PyException α) state ↔
      error.cls.isTransient = false := by
  simp [Lasts]

/-- What comes from outside the program is not transient. -/
theorem lasts_of_exec {command : Command} {before after : State}
    {choice : Choice} {reply : Except PyException command.Reply}
    (taken : exec world before task command choice = some (reply, after)) :
    Lasts reply after := by
  intro error same
  rw [same] at taken
  exact not_transient_of_not_own (error_foreign taken)

theorem steadily_foreign {command : Command} (fine : ¬ command.PutsOff) :
    (steadily world).wp task (ask command) Lasts state :=
  steadily_ask fine fun _ _ _ _ _ taken => lasts_of_exec taken

theorem lasts_seq {α β : Type} {body : App α} {next : α → App β}
    (first : (steadily world).wp task body Lasts state)
    (rest : ∀ value state,
      (steadily world).wp task (next value) Lasts state) :
    (steadily world).wp task (body.bind next) Lasts state := by
  refine Discipline.wp_seq first ?_ ?_
  · intro value after _
    exact rest value after
  · intro error after lasts
    exact lasts_error_iff.mpr (lasts_error_iff.mp lasts)

theorem lasts_cached (currency : String) :
    (steadily world).wp task (cached currency) Lasts state := by
  refine lasts_seq (steadily_foreign fun puts => puts) ?_
  intro entry after
  split
  · exact lasts_ok _ _
  · refine lasts_seq (steadily_foreign fun puts => puts) ?_
    intro now later
    split
    · exact lasts_ok _ _
    · exact lasts_ok _ _

/-- A response without a server error yields a rate or fails for good. -/
theorem lasts_rateOf (world : World) (currency : String)
    {response : HttpResponse} (served : response.statusCode < 500)
    (state : State) : Lasts (rateOf world currency response) state := by
  unfold rateOf
  split
  · exact lasts_error_iff.mpr rfl
  · rw [if_neg (Nat.not_le.mpr served)]
    split
    · exact lasts_error_iff.mpr rfl
    · split
      case h_1 raised _ => exact lasts_error_iff.mpr raised.not_transient
      case h_2 => exact lasts_ok _ _

/-- The service has answered, not with a server error. -/
def WellServed (outcome : Except PyException HttpResponse) (_ : State) : Prop :=
  ∃ response, outcome = .ok response ∧ response.statusCode < 500

theorem wellServed_httpGet (currency : String) :
    (steadily world).wp task
      ((App.httpGet currency).tryExcept fun exc =>
        if exc.cls = .requestError then
          .raise (rateServiceUnavailable
            ("rate-service unreachable: " ++ exc.text))
        else .raise exc)
      WellServed state := by
  have asked : (steadily world).wp task (App.httpGet currency) WellServed
      state := by
    refine steadily_ask (fun puts => puts) ?_
    intro before choice reply later permitted taken
    rcases permitted with ⟨response, answered, served⟩
    simp only [exec, httpGet, answered] at taken
    cases taken
    exact ⟨response, rfl, served⟩
  refine Discipline.wp_tryExcept asked ?_ ?_
  · intro response later served
    exact served
  · intro error later served
    rcases served with ⟨response, impossible, _⟩
    cases impossible

theorem lasts_getRate (currency : String) :
    (steadily world).wp task (getRate world currency) Lasts state := by
  refine lasts_seq (lasts_cached currency) ?_
  intro hit after
  split
  case h_1 rate => exact lasts_ok _ _
  case h_2 =>
    refine Discipline.wp_seq (wellServed_httpGet currency) ?_ ?_
    · intro response later reached
      rcases reached with ⟨same, equality, served⟩
      cases equality
      have judged := lasts_rateOf world currency served later
      cases outcome : rateOf world currency response with
      | error error =>
          rw [outcome] at judged
          exact lasts_error_iff.mpr (lasts_error_iff.mp judged)
      | ok rate =>
          change (steadily world).wp task
            ((store world currency rate).bind fun _ => .ret rate) Lasts later
          refine lasts_seq ?_ fun _ last => lasts_ok _ _
          exact lasts_seq (steadily_foreign fun puts => puts) fun now last =>
            steadily_foreign fun puts => puts
    · intro error later served
      rcases served with ⟨response, impossible, _⟩
      cases impossible

/-- An operation whose failures last does not fail for the time being when it
is tried again. -/
theorem lasts_retryAsync {α : Type} {fn : App α} {attempts : Int}
    {baseDelay maxDelay : ℚ} (operation : RetriedOperation)
    (body : ∀ state, (steadily world).wp task fn Lasts state) :
    (steadily world).wp task
      (retryAsync fn attempts baseDelay maxDelay ExceptionClass.isTransient
        (onRetry operation)) Lasts state := by
  refine wp_retryAsync steadily_stable ?_ ?_ ?_ ?_ _ _ _ trivial
  · intro command pausing before choice reply after _ _ _ _
    refine ⟨steadily_guarantee ?_, trivial⟩
    intro puts
    cases command with
    | observe note => exact pausing
    | _ => exact puts
  · intro attempt exc delay reached _
    refine steadily_ask (fun puts => puts) ?_
    intro before choice reply after _ taken
    cases taken
    exact trivial
  · intro reached _
    refine Discipline.wp_mono ?_ (body reached)
    intro outcome after lasts
    cases outcome with
    | ok value => exact lasts_ok (some value) after
    | error error =>
        have lasting := lasts_error_iff.mp lasts
        exact ⟨trivial, lasts_error_iff.mpr lasting⟩
  · intro error reached _ foreign
    exact lasts_error_iff.mpr (not_transient_of_not_own foreign)

/-! ### The insert -/

/-- The SQLSTATE of a value that does not fit its column. -/
def IsRefusal (sqlstate : String) : Prop :=
  sqlstate = "22021" ∨ sqlstate = "22001" ∨ sqlstate = "22003"

/-- Whatever fails in the end refuses. -/
def Refuses {α : Type} (outcome : Except String α) : Prop :=
  ∀ sqlstate, outcome = .error sqlstate → IsRefusal sqlstate

theorem refuses_bind {α β : Type} {first : Except String α}
    {next : α → Except String β} (here : Refuses first)
    (later : ∀ value, Refuses (next value)) : Refuses (first >>= next) := by
  intro sqlstate failed
  cases first with
  | error refusal =>
      cases failed
      exact here _ rfl
  | ok value => exact later value sqlstate failed

theorem refuses_varchar (text : String) : Refuses (varchar text) := by
  intro sqlstate failed
  unfold varchar at failed
  split at failed
  · exact Or.inl (Except.error.inj failed).symm
  · cases failed

theorem refuses_varcharUpTo (limit : Nat) (text : String) :
    Refuses (varcharUpTo limit text) := by
  intro sqlstate failed
  unfold varcharUpTo at failed
  split at failed
  · exact Or.inl (Except.error.inj failed).symm
  · split at failed
    · cases failed
    · split at failed
      · cases failed
      · exact Or.inr (Or.inl (Except.error.inj failed).symm)

theorem refuses_numeric18 (scale : Nat) (value : Decimal) :
    Refuses (numeric18 scale value) := by
  intro sqlstate failed
  unfold numeric18 at failed
  split at failed
  · cases failed
  · exact Or.inr (Or.inr (Except.error.inj failed).symm)

theorem refuses_toColumns (zone : LocalZone) (row : ProcessedTransaction) :
    Refuses (row.toColumns zone) := by
  refine refuses_bind (refuses_varchar _) fun id => ?_
  refine refuses_bind (refuses_varchar _) fun userId => ?_
  refine refuses_bind (refuses_numeric18 4 _) fun amount => ?_
  refine refuses_bind (refuses_varcharUpTo 3 _) fun currency => ?_
  refine refuses_bind (refuses_numeric18 8 _) fun rate => ?_
  refine refuses_bind (refuses_numeric18 4 _) fun amountUsd => ?_
  intro sqlstate impossible
  cases impossible

/-- What the columns refuse is classified as no outage. -/
theorem not_classified_of_isRefusal {sqlstate : String}
    (refusal : IsRefusal sqlstate) :
    classifyDbError (Db.rejected world sqlstate) = none := by
  rcases refusal with rfl | rfl | rfl
  · rfl
  · rfl
  · rfl

/-- The error is that of a value that does not fit its column. -/
def Rejects {α : Type} (world : World) (outcome : Except PyException α)
    (_ : State) : Prop :=
  ∀ error, outcome = .error error →
    ∃ sqlstate, IsRefusal sqlstate ∧ error = Db.rejected world sqlstate

theorem rejects_execute (row : ProcessedTransaction) :
    (steadily world).wp task (App.execute row) (Rejects world) state := by
  refine steadily_ask (fun puts => puts) ?_
  intro before choice reply after permitted taken error same
  have fine : choice.fate = .ok := permitted
  simp only [exec, Db.execute, fine, Db.insert] at taken
  split at taken
  case h_1 sqlstate refused =>
    cases taken
    cases same
    exact ⟨sqlstate, refuses_toColumns _ _ _ refused, rfl⟩
  case h_2 =>
    split at taken
    · cases taken
      cases same
    · split at taken
      · cases taken
      · cases taken
        cases same

theorem rejects_commit :
    (steadily world).wp task App.commit (Rejects world) state := by
  refine steadily_ask (fun puts => puts) ?_
  intro before choice reply after permitted taken error same
  have fine : choice.fate = .ok := permitted
  simp only [exec, Db.commit, fine] at taken
  cases taken
  cases same

theorem lasts_insertIgnoreDuplicate (row : ProcessedTransaction) :
    (steadily world).wp task (insertIgnoreDuplicate row) Lasts state := by
  refine lasts_seq ?_ fun inserted after =>
    lasts_seq (steadily_foreign fun puts => puts) fun _ _ => lasts_ok _ _
  have tried : (steadily world).wp task
      ((App.execute row).bind fun inserted =>
        App.commit.bind fun _ => .ret inserted) (Rejects world) state := by
    refine Discipline.wp_seq (rejects_execute row) ?_ ?_
    · intro inserted after _
      refine Discipline.wp_seq rejects_commit ?_ ?_
      · intro _ later _ error impossible
        cases impossible
      · intro error later rejects raised same
        exact rejects raised (by rw [Except.error.inj same])
    · intro error after rejects raised same
      exact rejects raised (by rw [Except.error.inj same])
  refine Discipline.wp_tryExcept tried ?_ ?_
  · intro inserted after _
    exact lasts_ok _ _
  · intro error after rejects
    rcases rejects error rfl with ⟨sqlstate, refusal, same⟩
    have driver : (Db.rejected world sqlstate).cls.isDbException = true := rfl
    rw [same, reraiseClassified, if_pos driver,
      not_classified_of_isRefusal refusal]
    exact lasts_error_iff.mpr rfl

/-! ### The whole of it -/

theorem lasts_amountUsdOf {amount : Decimal} (rate? : Option Decimal)
    (state : State) : Lasts (amountUsdOf amount rate?) state := by
  unfold amountUsdOf
  split
  · exact lasts_error_iff.mpr rfl
  · split
    case h_1 => exact lasts_ok _ _
    case h_2 signal _ =>
      cases signal with
      | invalidOperation => exact lasts_error_iff.mpr rfl
      | overflow => exact lasts_error_iff.mpr rfl

theorem lasts_ofExcept {α : Type} {outcome : Except PyException α}
    (lasts : Lasts outcome state) :
    (steadily world).wp task (Prog.ofExcept outcome) Lasts state := by
  cases outcome with
  | ok value => exact lasts
  | error error => exact lasts

theorem lasts_process (event : TransactionEvent) :
    (steadily world).wp task (process world event) Lasts state := by
  refine lasts_seq
    (lasts_retryAsync .rateLookup fun _ => lasts_getRate event.currency) ?_
  intro rate? after
  refine lasts_seq (lasts_ofExcept (lasts_amountUsdOf rate? after)) ?_
  intro amounts later
  refine lasts_seq ?_ ?_
  · exact lasts_seq (steadily_foreign fun puts => puts) fun wall last =>
      lasts_ok _ _
  · intro processedAt last
    refine lasts_seq
      (lasts_retryAsync .dbInsert fun _ => lasts_insertIgnoreDuplicate _) ?_
    intro inserted final
    split
    · exact lasts_ok _ _
    · exact lasts_ok _ _

/-! ## The rounds of the loops -/

/-- The other commands of a round. -/
def Command.Steady (command : Command) : Prop :=
  ¬ command.PutsOff

theorem steadily_steady {α : Type} {body : App α}
    (uses : body.Uses Command.Steady) :
    (steadily world).wp task body (fun _ _ => True) state :=
  steadily_uses uses fun _ steady => steady

theorem uses_deadLetterFields (id : MsgId) (fields : Dict) (reason : String) :
    (deadLetterFields id fields reason).Uses Command.Steady := by
  apply Prog.Uses.bind (Prog.Uses.perform fun puts => puts)
  intro announced
  exact Prog.Uses.bind (Prog.Uses.perform fun puts => puts) fun _ =>
    Prog.Uses.perform fun puts => puts

theorem uses_handleFailure (msg : StreamMessage) (exc : PyException) :
    (handleFailure world msg exc).Uses Command.Steady := by
  have counted : ∀ kind,
      (App.inc (.eventsFailed kind)).Uses Command.Steady :=
    fun kind => Prog.Uses.perform fun puts => puts
  have buried : ∀ reason kind, ((deadLetter msg reason).bind fun _ =>
      App.inc (.eventsFailed kind)).Uses Command.Steady :=
    fun reason kind => Prog.Uses.bind (uses_deadLetterFields _ _ reason)
      fun _ => counted kind
  unfold handleFailure
  split
  · exact buried _ _
  · split
    · split
      · exact buried _ _
      · exact counted _
    · exact buried _ _

/-- Only the end of processing could put a message off. -/
theorem steadily_processAndAck (msg : StreamMessage) :
    (steadily world).wp task (processAndAck world msg) (fun _ _ => True)
      state := by
  refine Discipline.wp_bind.mpr (Discipline.wp_attempt.mpr
    (Discipline.wp_mono ?_ (lasts_process msg.event)))
  intro ended after lasts
  have fine : ¬ (Command.observe (.processEnded msg.msgId ended)).PutsOff := by
    cases ended with
    | ok outcome => exact fun puts => puts
    | error error =>
        intro puts
        have lasting := lasts_error_iff.mp lasts
        rw [show error.cls.isTransient = true from puts] at lasting
        cases lasting
  refine steadily_steady (Prog.Uses.bind (Prog.Uses.perform fine) ?_)
  intro announced
  refine Prog.Uses.bind (Prog.Uses.ofExcept ended) ?_
  intro outcome
  exact Prog.Uses.bind (Prog.Uses.perform fun puts => puts) fun _ =>
    Prog.Uses.perform fun puts => puts

theorem steadily_handle (msg : StreamMessage) :
    (steadily world).wp task (handle world msg) (fun _ _ => True) state := by
  have noted : ∀ (note : Note) reached,
      ¬ (Command.observe note).PutsOff →
        (steadily world).wp task (App.observe note) (fun _ _ => True) reached :=
    fun note reached fine => steadily_ask fine fun _ _ _ _ _ _ => trivial
  refine Discipline.wp_seq (noted _ state fun puts => puts) ?_
    (fun _ _ _ => trivial)
  intro _ after _
  have tried : (steadily world).wp task
      ((processAndAck world msg).tryExcept (handleFailure world msg))
      (fun _ _ => True) after :=
    Discipline.wp_tryExcept (steadily_processAndAck msg)
      (fun _ _ _ => trivial)
      fun error _ _ => steadily_steady (uses_handleFailure msg error)
  refine Discipline.wp_seq tried ?_ (fun _ _ _ => trivial)
  intro _ later _
  exact noted _ later fun puts => puts

theorem steadily_handleAll (messages : List StreamMessage) :
    (steadily world).wp task (Prog.forEach messages (handle world))
      (fun _ _ => True) state := by
  let anything (_ : List StreamMessage) (_ : State) : Prop := True
  have started : anything messages state := trivial
  refine Discipline.wp_forEach ?_ (fun _ _ => trivial) messages started
  intro msg rest reached _
  refine Discipline.wp_mono ?_ (steadily_handle msg)
  intro outcome after _
  cases outcome with
  | ok value => exact trivial
  | error error => exact trivial

theorem steady_parseEntries (deliveryCounts : MsgId → Nat)
    (entries : List (MsgId × Dict)) :
    (parseEntries world deliveryCounts entries).Uses Command.Steady := by
  induction entries with
  | nil => exact trivial
  | cons entry rest inductionHypothesis =>
      rcases entry with ⟨msgId, fields⟩
      rw [parseEntries]
      split
      · split
        · refine Prog.Uses.bind (uses_deadLetterFields _ _ _) ?_
          intro buried
          exact Prog.Uses.bind (Prog.Uses.perform fun puts => puts) fun _ =>
            inductionHypothesis
        · exact trivial
      · exact Prog.Uses.bind inductionHypothesis fun _ => trivial

theorem steadily_consumeRound :
    (steadily world).wp task (consumeRound world) (fun _ _ => True) state := by
  have reading : (read world).Uses Command.Steady := by
    apply Prog.Uses.bind (Prog.Uses.perform fun puts => puts)
    intro entries
    split
    · exact trivial
    · exact steady_parseEntries _ _
  refine Discipline.wp_seq (steadily_steady reading) ?_ (fun _ _ _ => trivial)
  intro messages after _
  exact steadily_handleAll messages

theorem steadily_reclaimRound :
    (steadily world).wp task (reclaimRound world) (fun _ _ => True) state := by
  have claiming :
      (claimStale world world.settings.minIdleMs).Uses Command.Steady := by
    apply Prog.Uses.bind (Prog.Uses.perform fun puts => puts)
    intro reply
    split
    · exact trivial
    · exact Prog.Uses.bind (uses_lookUpCounts (fun _ puts => puts) _ _)
        fun counts => steady_parseEntries counts _
  refine Discipline.wp_seq
    (steadily_ask (fun puts => puts) fun _ _ _ _ _ _ => trivial) ?_
    (fun _ _ _ => trivial)
  intro slept after _
  refine Discipline.wp_seq (steadily_steady claiming) ?_ (fun _ _ _ => trivial)
  intro messages later _
  exact steadily_handleAll messages

theorem Starts.steadily {program : App Unit} (starts : Starts world program) :
    (steadily world).wp task program
      (Discipline.returns fun _ => True) state := by
  have right : (TxnEvents.steadily world).wp task program (fun _ _ => True)
      state := by
    cases starts with
    | serve request =>
        refine steadily_uses (uses_serve world request) ?_
        intro command plain puts
        cases command with
        | observe note =>
            cases note with
            | processEnded msgId ended => exact plain
            | _ => exact puts
        | _ => exact puts
    | boot =>
        refine steadily_uses (uses_bootWorker world) ?_
        intro command boots puts
        cases command with
        | observe note => exact boots
        | _ => exact puts
    | consume => exact steadily_consumeRound
    | reclaim => exact steadily_reclaimRound
  refine Discipline.wp_mono ?_ right
  intro outcome reached _
  cases outcome with
  | ok value => exact trivial
  | error error => exact trivial

end Steadily

/-! ## Every run without outages -/

theorem reaches_steadily {world : World} {config : AppConfig}
    (reaches : Reaches world steady config) :
    (steadily world).Good (fun _ _ => True) config := by
  refine Discipline.sound ?_ ?_ ?_ ?_ reaches
  · exact fun _ _ _ _ _ _ => trivial
  · refine ⟨trivial, ?_⟩
    intro task program running
    cases running
  · intro finished state tasks _ _ _ _ task program current
    exact (next_cases current).imp_right fun follows =>
      follows.starts.steadily
  · intro event before tasks after tasksAfter _ _ _ happened
    refine ⟨trivial, ?_⟩
    intro task program running
    exact (happen_tasks happened running).imp
      (fun same => ⟨same.1, trivial⟩) fun begins => begins.starts.steadily

/-- Nothing was put off, and no worker was killed. -/
structure Undeterred (state : State) : Prop where
  ended : ∀ task id error,
    .noted task (.processEnded id (.error error)) ∈ state.history →
      error.cls.isTransient = false
  alive : ∀ name, .killed name ∉ state.history

theorem history_of_spared {world : World} {event : Event}
    {before after : State} {tasks tasksAfter : AppTasks}
    (spared : ∀ name, event ≠ .kill name)
    (happened : happen world event before tasks = some (after, tasksAfter)) :
    after.history = before.history := by
  cases event with
  | kill name => exact absurd rfl (spared name)
  | ask number request =>
      simp only [happen] at happened
      split at happened
      · cases happened
        rfl
      · cases happened
  | startWorker name =>
      simp only [happen] at happened
      split at happened
      · cases happened
        rfl
      · cases happened
  | _ =>
      cases happened
      rfl

theorem reaches_undeterred {world : World} {config : AppConfig}
    (reaches : Reaches world steady config) : Undeterred config.shared := by
  let holds (state : State) : Prop := Undeterred state
  change holds config.shared
  refine Discipline.invariant (fun _ reached => reaches_steadily reached)
    (fun _ _ _ _ permitted => permitted) ?_ ?_ ?_ reaches
  · constructor
    · intro task id error member
      cases member
    · intro name member
      cases member
  · intro before task command resume choice reply after _ _ _ _ fine taken held
    rcases exec_recorded taken with ⟨newer, equality, recorded⟩
    constructor
    · intro actor id error member
      rw [equality] at member
      rcases List.mem_append.mp member with new | old
      · cases recorded _ new with
        | noted note => exact Bool.eq_false_iff.mpr fine
      · exact held.ended actor id error old
    · intro name member
      rw [equality] at member
      rcases List.mem_append.mp member with new | old
      · cases recorded _ new
      · exact held.alive name old
  · intro before event after tasksAfter _ spared _ happened held
    constructor
    · intro task id error member
      exact held.ended task id error (mem_of_happen happened rfl member)
    · intro name member
      rw [history_of_spared spared happened] at member
      exact held.alive name member

/-- In a run in which the rate service and the database are there and no
worker is killed, whatever Redis does: when no loop has a message in hand, no
message is pending, and without a bound on the stream everything that was
handed out is stored or dead-lettered.  A loop that has ended with an exception
keeps in hand what it has not let go of, even when the reply that delivered it
was lost. -/
theorem rest_without_outages_is_complete {world : World} {config : AppConfig}
    (reaches : Reaches world steady config)
    (resting : ∀ task, Resting config.shared task) :
    (∀ id, ¬ config.shared.Pending id) ∧
      (world.settings.streamMaxlen = none →
        ∀ id, config.shared.HandedOut id →
          Accounted world config.shared id) := by
  have undeterred := reaches_undeterred reaches
  have free : Reaches world Permit.any config :=
    System.Reachable.mono (fun _ _ _ _ _ => trivial) (fun _ _ _ => trivial)
      reaches
  have settled : ∀ id, ¬ config.shared.Pending id := by
    intro id pending
    rcases reaches_explained free pending with
      ⟨task, told, delivered, left, isLoop⟩
    rcases delivered.of_biography with ⟨since, last, within⟩
    rcases last.split with ⟨earlier, equality⟩
    have told_ : ∀ happening ∈ told, happening ∈ config.shared.history := by
      intro happening member
      rw [equality]
      exact List.mem_append_left _ (within happening member)
    cases left with
    | inHand held =>
        apply held.held
        rw [phase_biography]
        exact resting task id
    | killed gone =>
        rcases gone with ⟨name, _, member⟩
        exact undeterred.alive name (told_ _ member)
    | putOff failed =>
        rcases failed with ⟨count, error, _, ended, transient, _⟩
        have lasting := undeterred.ended task id error (told_ _ ended)
        rw [transient] at lasting
        cases lasting
  refine ⟨settled, ?_⟩
  intro unbounded id handedOut
  have kept := (reaches_safe (sparing_of_unbounded unbounded reaches)).kept
    trivial
  exact kept.accounted id ⟨handedOut, settled id⟩

/-! ## A run without outages -/

/-- The task and the message that a happening is about. -/
def Happening.about : Happening → Option (Tid × MsgId)
  | delivered task id => some (task, id)
  | noted task (.processStarted id _) => some (task, id)
  | noted task (.processEnded id _) => some (task, id)
  | noted task (.deadLettering id _) => some (task, id)
  | _ => none

/-- Everything that was in hand has been let go. -/
def lettingGo (history : History) : Bool :=
  (history.filterMap Happening.about).all fun pair =>
    decide (phase history pair.1 pair.2 = .idle)

theorem about_of_held {history : History} {task : Tid} {id : MsgId}
    (held : phase history task id ≠ .idle) :
    (task, id) ∈ history.filterMap Happening.about := by
  induction history with
  | nil => exact absurd rfl held
  | cons happening earlier inductionHypothesis =>
      by_cases before : phase earlier task id = .idle
      · rw [phase_cons, before] at held
        refine List.mem_filterMap.mpr ⟨happening, List.mem_cons_self, ?_⟩
        cases happening with
        | delivered actor msgId =>
            simp only [Happening.moves] at held
            split at held
            case isTrue same => rw [Happening.about, same.1, same.2]
            case isFalse => exact absurd rfl held
        | rateAnswered actor currency rate => exact absurd rfl held
        | killed name =>
            simp only [Happening.moves, ite_self] at held
            exact absurd rfl held
        | noted actor note =>
            simp only [Happening.moves] at held
            split at held
            case isFalse => exact absurd rfl held
            case isTrue mine =>
              rw [mine]
              cases note with
              | insertReturned inserted value => exact absurd rfl held
              | answered request response => exact absurd rfl held
              | finished msgId =>
                  simp only [Note.moves, ite_self] at held
                  exact absurd rfl held
              | _ =>
                  simp only [Note.moves] at held
                  split at held
                  case isTrue same => rw [Happening.about, same]
                  case isFalse => exact absurd rfl held
      · have inEarlier := inductionHypothesis before
        rw [List.filterMap_cons]
        split
        · exact inEarlier
        · exact List.mem_cons_of_mem _ inEarlier

theorem resting_of_lettingGo {state : State}
    (all : lettingGo state.history = true) (task : Tid) :
    Resting state task := by
  intro id
  by_contra held
  have idle := List.all_eq_true.mp all _ (about_of_held held)
  exact held (of_decide_eq_true idle)

def steadyGuard : AppGuard where
  command _ _ command choice :=
    match command, choice.fate, choice.http with
    | .httpGet _, _, .answered response => decide (response.statusCode < 500)
    | .httpGet _, _, .raised _ => false
    | .execute _, .ok, _ => true
    | .execute _, _, _ => false
    | .commit, .ok, _ => true
    | .commit, _, _ => false
    | _, _, _ => true
  env _ event :=
    match event with
    | .kill _ => false
    | _ => true

theorem respects_steadyGuard : steadyGuard.Respects steady where
  command := by
    intro state task command choice passed
    cases command with
    | httpGet currency =>
        cases outcome : choice.http with
        | raised error =>
            simp [steadyGuard, outcome] at passed
        | answered response =>
            simp only [steadyGuard, outcome, decide_eq_true_eq] at passed
            exact ⟨response, outcome, passed⟩
    | execute row =>
        cases fated : choice.fate <;> simp_all [steadyGuard, steady]
    | commit =>
        cases fated : choice.fate <;> simp_all [steadyGuard, steady]
    | _ => exact trivial
  env := by
    intro state event passed name same
    rw [same] at passed
    cases passed

theorem rest_without_outages_is_complete_coffee :
    ∃ config, Reaches (coffeeWorld unbounded) steady config ∧
      config.shared.HandedOut 0 ∧ (∀ task, Resting config.shared task) ∧
        (∀ id, ¬ config.shared.Pending id) ∧
          ((coffeeWorld unbounded).settings.streamMaxlen = none →
            ∀ id, config.shared.HandedOut id →
              Accounted (coffeeWorld unbounded) config.shared id) := by
  have taken : ((system (coffeeWorld unbounded)).run steadyGuard start
      (post 0 coffee {} ++ launch 0 ++
        storeOne 0 (.finite false 11 (-1)))).any
          (fun config =>
            lettingGo config.shared.history &&
              config.shared.redis.group.any fun group =>
                decide (0 < group.lastDelivered)) = true := by
    decide +kernel
  rcases reaches_of_run respects_steadyGuard taken with
    ⟨config, reaches, shown⟩
  rw [Bool.and_eq_true] at shown
  rcases (Option.any_eq_true _ _).mp shown.2 with ⟨group, found, below⟩
  have resting := resting_of_lettingGo shown.1
  exact ⟨config, reaches, ⟨group, found, of_decide_eq_true below⟩, resting,
    rest_without_outages_is_complete reaches resting⟩

end TxnEvents
