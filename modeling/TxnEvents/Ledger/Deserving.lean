import TxnEvents.Delivery.Healthy

/-!
# Processing while the services are healthy

When every command succeeds and the rate service answers, processing an event
succeeds exactly if its currency has a rate, its amount converts and the
columns take the row.
-/

namespace TxnEvents

open Effects Arith Python Streams App

/-! ## Events that can be stored -/

/-- Every column takes its value. -/
def ProcessedTransaction.fits (row : ProcessedTransaction) : Bool :=
  (varchar row.id).isOk && (varchar row.userId).isOk &&
    (numeric18 4 row.amount).isOk && (varcharUpTo 3 row.currency).isOk &&
      (numeric18 8 row.rate).isOk && (numeric18 4 row.amountUsd).isOk

theorem isOk_bind {α β : Type} {first : Except String α}
    {next : α → Except String β} :
    (first >>= next).isOk = true ↔
      ∃ value, first = .ok value ∧ (next value).isOk = true := by
  cases first with
  | error sqlstate =>
      constructor
      · intro impossible
        cases impossible
      · intro found
        rcases found with ⟨_, impossible, _⟩
        cases impossible
  | ok value =>
      constructor
      · intro fine
        exact ⟨value, rfl, fine⟩
      · intro found
        rcases found with ⟨_, same, fine⟩
        cases same
        exact fine

theorem isOk_iff {α : Type} {outcome : Except String α} :
    outcome.isOk = true ↔ ∃ value, outcome = .ok value := by
  cases outcome with
  | error sqlstate => simp [Except.isOk, Except.toBool]
  | ok value => simp [Except.isOk, Except.toBool]

/-- Whether the columns accept a row does not depend on its dates. -/
theorem isOk_toColumns_iff (zone : LocalZone) (row : ProcessedTransaction) :
    (row.toColumns zone).isOk = true ↔ row.fits = true := by
  simp only [ProcessedTransaction.toColumns, isOk_bind]
  simp only [ProcessedTransaction.fits, Bool.and_eq_true, isOk_iff]
  constructor
  · intro accepted
    rcases accepted with
      ⟨id, idOk, user, userOk, amount, amountOk, currency, currencyOk, rate,
        rateOk, usd, usdOk, _⟩
    exact ⟨⟨⟨⟨⟨⟨id, idOk⟩, ⟨user, userOk⟩⟩, ⟨amount, amountOk⟩⟩,
      ⟨currency, currencyOk⟩⟩, ⟨rate, rateOk⟩⟩, ⟨usd, usdOk⟩⟩
  · intro fits
    rcases fits with
      ⟨⟨⟨⟨⟨⟨id, idOk⟩, ⟨user, userOk⟩⟩, ⟨amount, amountOk⟩⟩,
        ⟨currency, currencyOk⟩⟩, ⟨rate, rateOk⟩⟩, ⟨usd, usdOk⟩⟩
    exact ⟨id, idOk, user, userOk, amount, amountOk, currency, currencyOk,
      rate, rateOk, usd, usdOk, _, rfl⟩

/-- The row of the event at a rate, whenever it is processed. -/
def rowAt (event : TransactionEventIn) (rate amountUsd : Decimal) :
    ProcessedTransaction :=
  processedRow ⟨event, ⟨0, some 0⟩⟩ rate amountUsd ⟨0, some 0⟩

theorem fits_rowAt (event : TransactionEvent) (rate amountUsd : Decimal)
    (processedAt : DateTime) :
    (rowAt event.toTransactionEventIn rate amountUsd).fits =
      (processedRow event rate amountUsd processedAt).fits := by
  simp only [ProcessedTransaction.fits, rowAt, processedRow]

/-- The currency has a rate, the conversion succeeds and the columns take the
row. -/
def storable (rates : Rates) (event : TransactionEventIn) : Bool :=
  match rates event.currency with
  | none => false
  | some rate =>
      match convertToUsd event.amount rate with
      | .error _ => false
      | .ok amountUsd => (rowAt event rate amountUsd).fits

/-- The entry does not parse, or its event cannot be stored. -/
def Hopeless (world : World) (rates : Rates) (state : State) (id : MsgId) :
    Prop :=
  ∃ fields, state.entryFields id = some fields ∧
    ∀ event, parseFields world.unicode world.json fields = .ok event →
      storable rates event.toTransactionEventIn = false

theorem Hopeless.grow {world : World} {rates : Rates} {id : MsgId}
    {before after : State} (hopeless : Hopeless world rates before id)
    (grows : Grows before after) : Hopeless world rates after id := by
  rcases hopeless with ⟨fields, entry, never⟩
  exact ⟨fields, grows.entryFields entry, never⟩

/-- Processing the entry has succeeded exactly if its event can be stored. -/
def Judged (world : World) (rates : Rates) (state : State) (id : MsgId)
    (outcome : Except PyException Outcome) : Prop :=
  ∃ fields event, state.entryFields id = some fields ∧
    parseFields world.unicode world.json fields = .ok event ∧
      outcome.isOk = storable rates event.toTransactionEventIn

theorem Judged.grow {world : World} {rates : Rates} {id : MsgId}
    {outcome : Except PyException Outcome} {before after : State}
    (judged : Judged world rates before id outcome)
    (grows : Grows before after) : Judged world rates after id outcome := by
  rcases judged with ⟨fields, event, entry, parsed, same⟩
  exact ⟨fields, event, grows.entryFields entry, parsed, same⟩

/-! ## The discipline -/

/-- Runs in which every command succeeds and the rate service gives these
rates. -/
def healthy (rates : Rates) : AppPermit where
  command := (recovering rates).command
  env _ _ := True

/-- The caches hold the rates. -/
def CacheFollows (rates : Rates) (state : State) : Prop :=
  ∀ process currency rate expiresAt,
    (state.memory process).cache currency = some (rate, expiresAt) →
      rates currency = some rate

structure Deserving (world : World) (rates : Rates) (state : State) :
    Prop where
  caches : CacheFollows rates state
  letters : ∀ letter ∈ state.redis.deadLetters,
    Hopeless world rates state letter.origin

/-- What a step owes to the caches and to the dead-letter stream, and what it
may note of processing. -/
def OwesDesert (world : World) (rates : Rates) (state : State) :
    Command → Prop
  | .cacheSet currency rate _ => rates currency = some rate
  | .xaddDlq origin _ => Hopeless world rates state origin
  | .observe (.processEnded id outcome) => Judged world rates state id outcome
  | _ => True

def deserving (world : World) (rates : Rates) : Discipline (system world) where
  permit := healthy rates
  inv := Deserving world rates
  owes state _ command := OwesDesert world rates state command
  rely _ := Grows
  rely_refl _ := Grows.refl
  rely_trans _ _ _ _ := Grows.trans

theorem CacheFollows.of_caches {rates : Rates} {before after : State}
    (follows : CacheFollows rates before)
    (caches : ∀ process currency entry,
      (after.memory process).cache currency = some entry →
        (before.memory process).cache currency = some entry) :
    CacheFollows rates after := by
  intro process currency rate expiresAt found
  exact follows process currency rate expiresAt
    (caches process currency _ found)

/-- Memory that is written without a new cache entry. -/
theorem caches_setLocal {state : State} {written : Process}
    {memory : LocalState}
    (fewer : ∀ currency entry, memory.cache currency = some entry →
      (state.memory written).cache currency = some entry) :
    ∀ process currency entry,
      ((state.setLocal written memory).memory process).cache currency =
          some entry →
        (state.memory process).cache currency = some entry := by
  intro process currency entry found
  change (Function.update state.memory written memory process).cache
    currency = some entry at found
  by_cases same : process = written
  · rw [same, Function.update_self] at found
    rw [same]
    exact fewer currency entry found
  · rwa [Function.update_of_ne same] at found

section Exec

variable {world : World} {rates : Rates} {state after : State} {task : Tid}

theorem exec_cacheFollows {command : Command} {choice : Choice}
    {reply : Except PyException command.Reply}
    (follows : CacheFollows rates state)
    (owes : OwesDesert world rates state command)
    (taken : exec world state task command choice = some (reply, after)) :
    CacheFollows rates after := by
  by_cases local_ : command.isLocal = false
  · refine follows.of_caches ?_
    intro process currency entry found
    rwa [memory_of_not_isLocal local_ taken] at found
  · cases command with
    | cacheSet currency rate expiresAt =>
        cases taken
        intro process other cachedRate cachedUntil found
        by_cases mine : process = task.process
        · rw [mine] at found
          simp only [cacheSet, State.setLocal, Function.update_self] at found
          by_cases same : other = currency
          · rw [same, Function.update_self] at found
            cases found
            rw [same]
            exact owes
          · rw [Function.update_of_ne same] at found
            exact follows _ _ _ _ found
        · simp only [cacheSet, State.setLocal, Function.update_of_ne mine]
            at found
          exact follows _ _ _ _ found
    | monotonic =>
        simp only [exec, monotonic] at taken
        split at taken
        · cases taken
        · cases taken
          exact follows.of_caches (caches_setLocal fun _ _ found => found)
    | inc counter =>
        cases taken
        exact follows.of_caches (caches_setLocal fun _ _ found => found)
    | _ => exact absurd rfl local_

theorem exec_deserving {command : Command} {choice : Choice}
    {reply : Except PyException command.Reply}
    (deserving : Deserving world rates state)
    (owes : OwesDesert world rates state command)
    (taken : exec world state task command choice = some (reply, after)) :
    Deserving world rates after where
  caches := exec_cacheFollows deserving.caches owes taken
  letters := by
    have grows := exec_grows taken
    intro letter member
    by_cases buries : ∃ origin fields, command = .xaddDlq origin fields
    · rcases buries with ⟨origin, fields, rfl⟩
      rcases settle_state taken with same | reached
      · rw [same] at member ⊢
        exact deserving.letters letter member
      · rw [reached] at member
        rcases List.mem_append.mp member with old | new
        · exact (deserving.letters letter old).grow grows
        · rw [List.mem_singleton.mp new]
          exact Hopeless.grow owes grows
    · rw [deadLetters_of_not_xaddDlq buries taken] at member
      exact (deserving.letters letter member).grow grows

theorem happen_deserving {event : Event} {tasks tasksAfter : AppTasks}
    (deserving : Deserving world rates state)
    (happened : happen world event state tasks = some (after, tasksAfter)) :
    Deserving world rates after where
  caches := by
    cases event with
    | ask number request =>
        simp only [happen] at happened
        split at happened
        · cases happened
          exact deserving.caches
        · cases happened
    | startWorker name =>
        simp only [happen] at happened
        split at happened
        · cases happened
          refine deserving.caches.of_caches (caches_setLocal ?_)
          intro currency entry impossible
          cases impossible
        · cases happened
    | _ =>
        cases happened
        exact deserving.caches
  letters := by
    intro letter member
    rw [happen_deadLetters happened] at member
    exact (deserving.letters letter member).grow (happen_grows happened)

end Exec

/-! ## Processing -/

section Deserving

variable {world : World} {rates : Rates} {task : Tid} {state : State}
  {holds : State → Prop}

theorem Lasting.deserving_stable (lasting : Lasting holds) :
    (deserving world rates).Stable task holds :=
  lasting.stable_of_grows fun _ _ grows => grows

/-- A command that pays what it owes, under an assertion that lasts. -/
theorem deserving_ask {command : Command}
    {post : Except PyException command.Reply → State → Prop}
    (lasting : Lasting holds) (current : holds state)
    (owes : ∀ before, Deserving world rates before → holds before →
      OwesDesert world rates before command)
    (effect : ∀ before choice reply after, Deserving world rates before →
      holds before → (recovering rates).command before task command choice →
        exec world before task command choice = some (reply, after) →
          post reply after) :
    (deserving world rates).wp task (ask command) post state := by
  refine wp_ask lasting.deserving_stable current ?_
  intro before choice reply after invariant held permitted taken
  have paid := owes before invariant held
  exact ⟨⟨paid, exec_deserving invariant paid taken,
    fun _ _ => exec_grows taken⟩,
    effect before choice reply after invariant held permitted taken⟩

/-- The commands that owe nothing. -/
def Command.Innocent : Command → Prop
  | cacheSet _ _ _ => False
  | xaddDlq _ _ => False
  | observe (.processEnded _ _) => False
  | _ => True

theorem Command.Innocent.owes {command : Command}
    (innocent : command.Innocent) : OwesDesert world rates state command := by
  cases command with
  | cacheSet currency rate expiresAt => exact innocent.elim
  | xaddDlq origin fields => exact innocent.elim
  | observe note =>
      cases note with
      | processEnded id outcome => exact innocent.elim
      | _ => exact trivial
  | _ => exact trivial

/-- A command that owes nothing. -/
theorem deserving_innocent {command : Command}
    {post : Except PyException command.Reply → State → Prop}
    (innocent : command.Innocent)
    (effect : ∀ before choice reply after, Deserving world rates before →
      (recovering rates).command before task command choice →
        exec world before task command choice = some (reply, after) →
          post reply after) :
    (deserving world rates).wp task (ask command) post state := by
  refine deserving_ask (Lasting.const True) trivial
    (fun _ _ _ => innocent.owes) ?_
  intro before choice reply after invariant _ permitted taken
  exact effect before choice reply after invariant permitted taken

theorem deserving_uses {α : Type} {body : App α}
    (uses : body.Uses Command.Innocent) :
    (deserving world rates).wp task body (fun _ _ => True) state := by
  refine Discipline.wp_of_uses (Lasting.const True).deserving_stable ?_ uses
    trivial
  intro command before choice reply after innocent invariant _ _ taken
  have paid : OwesDesert world rates before command := innocent.owes
  exact ⟨⟨paid, exec_deserving invariant paid taken,
    fun _ _ => exec_grows taken⟩, trivial⟩

theorem deserving_carry {α : Type} {body : App α}
    {post : Except PyException α → State → Prop} (lasting : Lasting holds)
    (current : holds state)
    (right : (deserving world rates).wp task body post state) :
    (deserving world rates).wp task body
      (fun outcome after => post outcome after ∧ holds after) state :=
  lasting.carried (fun _ _ grows => grows) current right

/-! ### The rate -/

/-- The rate of the currency, or a lasting error when there is none. -/
def Quoted (rates : Rates) (currency : String) :
    Except PyException Decimal → State → Prop
  | .ok rate, _ => rates currency = some rate
  | .error error, _ =>
      error.cls.isTransient = false ∧ rates currency = none

/-- A response that refuses is a lasting error. -/
theorem quoted_of_refuses {response : HttpResponse} {currency : String}
    (refuses : response.Refuses) (missing : rates currency = none) :
    Quoted rates currency (rateOf world currency response) state := by
  rcases refuses with ⟨below, noRate⟩
  have noError : ¬ 500 ≤ response.statusCode := by omega
  rw [rateOf, if_neg noError]
  split
  · exact ⟨rfl, missing⟩
  · split
    · exact ⟨rfl, missing⟩
    · next inRange =>
        rw [HttpOutcome.rate?, if_pos (not_not.mp inRange)] at noRate
        cases given : response.rate with
        | error raised => exact ⟨raised.not_transient, missing⟩
        | ok rate =>
            rw [given] at noRate
            cases noRate

theorem deserving_monotonic :
    (deserving world rates).wp task App.monotonic
      (fun outcome _ => ∃ now, outcome = .ok now) state := by
  refine deserving_innocent trivial ?_
  intro before choice reply after _ _ taken
  simp only [exec, monotonic] at taken
  split at taken
  · cases taken
  · cases taken
    exact ⟨_, rfl⟩

theorem deserving_cached (currency : String) :
    (deserving world rates).wp task (cached currency)
      (fun outcome _ => ∃ hit, outcome = .ok hit ∧
        ∀ rate, hit = some rate → rates currency = some rate) state := by
  have looked : (deserving world rates).wp task (App.cacheGet currency)
      (fun outcome _ => ∃ entry, outcome = .ok entry ∧
        ∀ rate expiresAt, entry = some (rate, expiresAt) →
          rates currency = some rate) state := by
    refine deserving_innocent trivial ?_
    intro before choice reply after invariant _ taken
    cases taken
    exact ⟨_, rfl, fun rate expiresAt found =>
      invariant.caches _ _ _ _ found⟩
  refine Discipline.wp_seq looked ?_ ?_
  · intro entry after found
    rcases found with ⟨_, same, follows⟩
    cases same
    match entry, follows with
    | none, _ => exact ⟨none, rfl, fun _ impossible => nomatch impossible⟩
    | some (rate, expiresAt), follows =>
        refine Discipline.wp_seq deserving_monotonic ?_ ?_
        · intro now later _
          split
          · exact ⟨none, rfl, fun _ impossible => nomatch impossible⟩
          · refine ⟨some rate, rfl, ?_⟩
            intro other same
            cases same
            exact follows rate expiresAt rfl
        · intro error later failed
          rcases failed with ⟨_, impossible⟩
          cases impossible
  · intro error after failed
    rcases failed with ⟨_, impossible, _⟩
    cases impossible

theorem deserving_httpGet (currency : String) :
    (deserving world rates).wp task
      ((App.httpGet currency).tryExcept fun exc =>
        if exc.cls = .requestError then
          .raise (rateServiceUnavailable
            ("rate-service unreachable: " ++ exc.text))
        else .raise exc)
      (fun outcome after => ∃ response, outcome = .ok response ∧
        Quoted rates currency (rateOf world currency response) after)
      state := by
  have asked : (deserving world rates).wp task (App.httpGet currency)
      (fun outcome after => ∃ response, outcome = .ok response ∧
        Quoted rates currency (rateOf world currency response) after)
      state := by
    refine deserving_innocent trivial ?_
    intro before choice reply after _ permitted taken
    rcases permitted.2 currency rfl with ⟨response, answered, given⟩
    simp only [exec, httpGet, answered] at taken
    cases taken
    refine ⟨response, rfl, ?_⟩
    cases known : rates currency with
    | none =>
        rw [known] at given
        exact quoted_of_refuses given known
    | some rate =>
        rw [known] at given
        have found : response.statusCode ≠ 404 := by omega
        have noError : ¬ 500 ≤ response.statusCode := by omega
        have inRange :
            ¬ ¬ (200 ≤ response.statusCode ∧ response.statusCode < 300) := by
          omega
        rw [rateOf, if_neg found, if_neg noError, if_neg inRange, given.2]
        exact known
  refine Discipline.wp_tryExcept asked ?_ ?_
  · intro response after quoted
    exact quoted
  · intro error after failed
    rcases failed with ⟨_, impossible, _⟩
    cases impossible

theorem deserving_store {currency : String} {rate : Decimal}
    (known : rates currency = some rate) :
    (deserving world rates).wp task (store world currency rate)
      (fun outcome _ => outcome = .ok ()) state := by
  refine Discipline.wp_seq deserving_monotonic ?_ ?_
  · intro now after _
    refine deserving_ask (Lasting.const True) trivial (fun _ _ _ => known) ?_
    intro before choice reply later _ _ _ taken
    cases taken
    rfl
  · intro error after failed
    rcases failed with ⟨_, impossible⟩
    cases impossible

theorem deserving_getRate (currency : String) :
    (deserving world rates).wp task (getRate world currency)
      (Quoted rates currency) state := by
  refine Discipline.wp_seq (deserving_cached currency) ?_ ?_
  · intro hit after found
    rcases found with ⟨_, same, follows⟩
    cases same
    match hit, follows with
    | some rate, follows => exact follows rate rfl
    | none, _ =>
        refine Discipline.wp_seq (deserving_httpGet currency) ?_ ?_
        · intro response later reached
          rcases reached with ⟨_, same, quoted⟩
          cases same
          cases outcome : rateOf world currency response with
          | error error =>
              rw [outcome] at quoted
              exact quoted
          | ok rate =>
              rw [outcome] at quoted
              change (deserving world rates).wp task
                ((store world currency rate).bind fun _ => .ret rate) _ later
              refine Discipline.wp_seq (deserving_store quoted) ?_ ?_
              · intro _ last _
                exact quoted
              · intro error last impossible
                cases impossible
        · intro error later failed
          rcases failed with ⟨_, impossible, _⟩
          cases impossible
  · intro error after failed
    rcases failed with ⟨_, impossible, _⟩
    cases impossible

/-- The first attempt decides, when no error of it is retried. -/
theorem deserving_retryAsync {α : Type} {fn : App α} {attempts : Int}
    {baseDelay maxDelay : ℚ} {retryOn : ExceptionClass → Bool}
    {onRetry : OnRetry} {post : Except PyException α → State → Prop}
    (some_ : 1 ≤ attempts)
    (body : (deserving world rates).wp task fn
      (fun outcome after => post outcome after ∧
        ∀ error, outcome = .error error → retryOn error.cls = false) state) :
    (deserving world rates).wp task
      (retryAsync fn attempts baseDelay maxDelay retryOn onRetry)
      (fun outcome after =>
        (∃ value, outcome = .ok (some value) ∧ post (.ok value) after) ∨
          ∃ error, outcome = .error error ∧ post (.error error) after ∧
            retryOn error.cls = false) state := by
  have enough : ¬ attempts < 1 := by omega
  have positive : 1 ≤ attempts.toNat := by omega
  rcases Nat.exists_eq_add_of_le' positive with ⟨more, count⟩
  rw [retryAsync, if_neg enough, count, retryFrom]
  refine Discipline.wp_bind.mpr (Discipline.wp_attempt.mpr
    (Discipline.wp_mono ?_ body))
  intro outcome after reached
  cases outcome with
  | ok value => exact Or.inl ⟨value, rfl, reached.1⟩
  | error error =>
      have unlisted := reached.2 error rfl
      simp only [Discipline.andThen, unlisted]
      exact Or.inr ⟨error, rfl, reached.1, unlisted⟩

theorem deserving_lookUpRate (event : TransactionEvent) :
    (deserving world rates).wp task (lookUpRate world event)
      (fun outcome _ =>
        (∃ rate, outcome = .ok (some rate) ∧
          rates event.currency = some rate) ∨
        ∃ error, outcome = .error error ∧ rates event.currency = none ∧
          error.cls.isTransient = false) state := by
  have positive : 1 ≤ (world.settings.rateAttempts : Int) := by
    have atLeast := world.settings.rateAttempts_pos
    omega
  have looked : (deserving world rates).wp task
      (getRate world event.currency)
      (fun outcome after => Quoted rates event.currency outcome after ∧
        ∀ error, outcome = .error error → error.cls.isTransient = false)
      state := by
    refine Discipline.wp_mono ?_ (deserving_getRate event.currency)
    intro outcome _ quoted
    refine ⟨quoted, ?_⟩
    intro error failed
    rw [failed] at quoted
    exact quoted.1
  refine Discipline.wp_mono ?_ (deserving_retryAsync positive looked)
  intro outcome _ reached
  rcases reached with ⟨rate, returned, quoted⟩ | ⟨error, raised, quoted, _⟩
  · exact Or.inl ⟨rate, returned, quoted⟩
  · exact Or.inr ⟨error, raised, quoted.2, quoted.1⟩

/-! ### The insert -/

/-- It succeeds exactly if the verdict says so, and trying a failure again does
not help. -/
structure Decides {α : Type} (verdict : Bool) (outcome : Except PyException α)
    (_ : State) : Prop where
  verdict : outcome.isOk = verdict
  lasting : ∀ error, outcome = .error error → error.cls.isTransient = false

theorem decides_ok {α : Type} {verdict : Bool} (holds : verdict = true)
    (value : α) (state : State) :
    Decides verdict (.ok value : Except PyException α) state :=
  ⟨holds.symm, fun _ impossible => nomatch impossible⟩

theorem decides_error {α : Type} {verdict : Bool} {error : PyException}
    (fails : verdict = false) (lasting : error.cls.isTransient = false)
    (state : State) :
    Decides verdict (.error error : Except PyException α) state := by
  refine ⟨fails.symm, ?_⟩
  intro other same
  cases same
  exact lasting

theorem fits_of_accepted {zone : LocalZone} {row : ProcessedTransaction}
    {stored : StoredTransaction} (accepted : row.toColumns zone = .ok stored) :
    row.fits = true := by
  apply (isOk_toColumns_iff zone row).mp
  rw [accepted]
  rfl

theorem not_fits_of_refused {zone : LocalZone} {row : ProcessedTransaction}
    {sqlstate : String} (refused : row.toColumns zone = .error sqlstate) :
    row.fits = false := by
  rw [Bool.eq_false_iff]
  intro fits
  have accepted := (isOk_toColumns_iff zone row).mpr fits
  rw [refused] at accepted
  cases accepted

theorem rejects_ok {α : Type} (value : α) (state : State) :
    Rejects world (.ok value : Except PyException α) state := by
  intro error impossible
  cases impossible

theorem deserving_execute (row : ProcessedTransaction) :
    (deserving world rates).wp task (App.execute row)
      (fun outcome after => Rejects world outcome after ∧
        outcome.isOk = row.fits) state := by
  refine deserving_innocent trivial ?_
  intro before choice reply after _ permitted taken
  have fine : choice.fate = .ok := permitted.1
  simp only [exec, Db.execute, fine, Db.insert] at taken
  split at taken
  case h_1 sqlstate refused =>
    cases taken
    refine ⟨?_, (not_fits_of_refused refused).symm⟩
    intro error same
    cases same
    exact ⟨sqlstate, refuses_toColumns _ _ _ refused, rfl⟩
  case h_2 stored accepted =>
    have fits := (fits_of_accepted accepted).symm
    split at taken
    · cases taken
      exact ⟨rejects_ok _ _, fits⟩
    · split at taken
      · cases taken
      · cases taken
        exact ⟨rejects_ok _ _, fits⟩

theorem deserving_commit :
    (deserving world rates).wp task App.commit
      (fun outcome _ => outcome = .ok ()) state := by
  refine deserving_innocent trivial ?_
  intro before choice reply after _ permitted taken
  have fine : choice.fate = .ok := permitted.1
  simp only [exec, Db.commit, fine] at taken
  cases taken
  rfl

theorem deserving_observe {note : Note}
    (innocent : (Command.observe note).Innocent) :
    (deserving world rates).wp task (App.observe note)
      (fun outcome _ => outcome = .ok ()) state := by
  refine deserving_innocent innocent ?_
  intro before choice reply after _ _ taken
  cases taken
  rfl

/-- Only a row that does not fit its columns fails to be inserted. -/
theorem deserving_insertIgnoreDuplicate (row : ProcessedTransaction) :
    (deserving world rates).wp task (insertIgnoreDuplicate row)
      (Decides row.fits) state := by
  have tried : (deserving world rates).wp task
      ((App.execute row).bind fun inserted =>
        App.commit.bind fun _ => .ret inserted)
      (fun outcome after => Rejects world outcome after ∧
        outcome.isOk = row.fits) state := by
    refine Discipline.wp_seq (deserving_execute row) ?_ ?_
    · intro inserted after accepted
      refine Discipline.wp_seq deserving_commit ?_ ?_
      · intro _ later _
        exact ⟨rejects_ok _ _, accepted.2⟩
      · intro error later impossible
        cases impossible
    · intro error after refused
      refine ⟨?_, refused.2⟩
      intro raised same
      cases same
      exact refused.1 error rfl
  have classified : (deserving world rates).wp task
      (((App.execute row).bind fun inserted =>
        App.commit.bind fun _ => .ret inserted).tryExcept reraiseClassified)
      (Decides row.fits) state := by
    refine Discipline.wp_tryExcept tried ?_ ?_
    · intro inserted after accepted
      exact decides_ok accepted.2.symm inserted after
    · intro error after refused
      rcases refused.1 error rfl with ⟨sqlstate, refusal, same⟩
      have driver : (Db.rejected world sqlstate).cls.isDbException = true := rfl
      rw [same, reraiseClassified, if_pos driver,
        not_classified_of_isRefusal refusal]
      exact decides_error refused.2.symm rfl after
  refine Discipline.wp_seq classified ?_ ?_
  · intro inserted after fits
    refine Discipline.wp_seq (deserving_observe trivial) ?_ ?_
    · intro _ later _
      exact decides_ok fits.verdict.symm inserted later
    · intro error later impossible
      cases impossible
  · intro error after refused
    exact decides_error refused.verdict.symm (refused.lasting error rfl) after

theorem deserving_insertRow (row : ProcessedTransaction) :
    (deserving world rates).wp task (insertRow world row)
      (Decides row.fits) state := by
  have positive : 1 ≤ (world.settings.dbAttempts : Int) := by
    have atLeast := world.settings.dbAttempts_pos
    omega
  have inserted : (deserving world rates).wp task (insertIgnoreDuplicate row)
      (fun outcome after => Decides row.fits outcome after ∧
        ∀ error, outcome = .error error → error.cls.isTransient = false)
      state := by
    refine Discipline.wp_mono ?_ (deserving_insertIgnoreDuplicate row)
    intro outcome after decided
    exact ⟨decided, decided.lasting⟩
  refine Discipline.wp_mono ?_ (deserving_retryAsync positive inserted)
  intro outcome after reached
  rcases reached with ⟨value, same, decided⟩ | ⟨raised, same, decided, lasts⟩
  · rw [same]
    exact decides_ok decided.verdict.symm (some value) after
  · rw [same]
    exact decides_error decided.verdict.symm lasts after

/-! ### The whole of it -/

theorem deserving_utcNow :
    (deserving world rates).wp task utcNow
      (fun outcome _ => ∃ now, outcome = .ok now) state := by
  have asked : (deserving world rates).wp task (ask .utcNow)
      (fun outcome _ => ∃ wall, outcome = .ok wall) state := by
    refine deserving_innocent trivial ?_
    intro before choice reply after _ _ taken
    cases taken
    exact ⟨_, rfl⟩
  refine Discipline.wp_seq asked ?_ ?_
  · intro wall after _
    exact ⟨_, rfl⟩
  · intro error after failed
    rcases failed with ⟨_, impossible⟩
    cases impossible

/-- Whatever the time of processing, the row fits or does not. -/
theorem deserving_convert {event : TransactionEvent} {rate : Decimal}
    (known : rates event.currency = some rate) :
    (deserving world rates).wp task
      ((Prog.ofExcept (amountUsdOf event.amount (some rate))).bind
        fun amounts => utcNow.bind fun processedAt =>
          (insertRow world
            (processedRow event amounts.1 amounts.2 processedAt)).bind
              fun inserted =>
                if inserted = some true then
                  (.ret .processed : App Outcome)
                else .ret .duplicate)
      (Decides (storable rates event.toTransactionEventIn)) state := by
  cases converted : convertToUsd event.amount rate with
  | error signal =>
      have fails : storable rates event.toTransactionEventIn = false := by
        simp only [storable, known, converted]
      simp only [amountUsdOf, converted]
      refine decides_error fails ?_ state
      cases signal with
      | invalidOperation => rfl
      | overflow => rfl
  | ok amountUsd =>
      have fitting : ∀ processedAt,
          storable rates event.toTransactionEventIn =
            (processedRow event rate amountUsd processedAt).fits := by
        intro processedAt
        simp only [storable, known, converted]
        exact fits_rowAt event rate amountUsd processedAt
      simp only [amountUsdOf, converted]
      change (deserving world rates).wp task
        (utcNow.bind fun processedAt =>
          (insertRow world
            (processedRow event rate amountUsd processedAt)).bind _) _ state
      refine Discipline.wp_seq deserving_utcNow ?_ ?_
      · intro processedAt after _
        rw [fitting processedAt]
        refine Discipline.wp_seq (deserving_insertRow _) ?_ ?_
        · intro inserted later decided
          have fits := decided.verdict.symm
          split
          · exact decides_ok fits _ later
          · exact decides_ok fits _ later
        · intro error later decided
          exact decides_error decided.verdict.symm
            (decided.lasting error rfl) later
      · intro error after failed
        rcases failed with ⟨_, impossible⟩
        cases impossible

/-- Processing succeeds exactly if the event can be stored. -/
theorem deserving_process (event : TransactionEvent) :
    (deserving world rates).wp task (process world event)
      (Decides (storable rates event.toTransactionEventIn)) state := by
  refine Discipline.wp_seq (deserving_lookUpRate event) ?_ ?_
  · intro rate? after found
    rcases found with ⟨rate, same, known⟩ | ⟨_, impossible, _⟩
    · cases same
      exact deserving_convert known
    · cases impossible
  · intro error after found
    rcases found with ⟨_, impossible, _⟩ | ⟨_, same, unknown, lasting⟩
    · cases impossible
    · cases same
      have fails : storable rates event.toTransactionEventIn = false := by
        rw [storable, unknown]
      exact decides_error fails lasting after

end Deserving

end TxnEvents
