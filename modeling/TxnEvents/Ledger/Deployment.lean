import TxnEvents.Effects.Attached
import TxnEvents.Ledger.Completion
import TxnEvents.RateService

/-!
# The pipeline and its rate service

The whole system beside the service that it asks for rates.  Whatever faults
are switched on and off, the rates in the table are those of the service, and
once a fault is over every run can be completed to the ledger that it would
have had without it.
-/

namespace TxnEvents

open Effects Arith Python Streams App

/-! ## The wiring -/

/-- What the URL for a currency leads to. -/
inductive Target
  | rate (parameter : String)
  | health
  | elsewhere (response : HttpResponse) (refuses : response.Refuses)

abbrev Wiring : Type := String → Target

namespace Target

/-- The response of the service. -/
def answer (unicode : UnicodeData) (fault : RateService.FaultConfig) :
    Target → HttpResponse
  | rate parameter =>
      let result := (RateService.getRate unicode fault parameter).result
      ⟨RateService.statusCode result, "", RateService.rateIn result⟩
  | health => ⟨200, "", RateService.rateIn (.ok (RateService.health fault))⟩
  | elsewhere response _ => response

/-- The rate that the service has for the URL. -/
def tableRate (unicode : UnicodeData) : Target → Option Decimal
  | rate parameter => RateService.tableRate unicode parameter
  | _ => none

end Target

/-- The request fails on the way, or the service answers it. -/
def AnswersTo (world : World) (wiring : Wiring)
    (fault : RateService.FaultConfig) (currency : String) : HttpOutcome → Prop
  | .raised _ => True
  | .answered response =>
      let answer := (wiring currency).answer world.unicode fault
      response.statusCode = answer.statusCode ∧ response.rate = answer.rate

/-- The rates that the service has for the currencies. -/
def serviceRates (world : World) (wiring : Wiring) : Rates :=
  fun currency => (wiring currency).tableRate world.unicode

/-! ## The answers -/

section Answers

variable {world : World} {wiring : Wiring} {fault : RateService.FaultConfig}
  {currency : String} {rates : Rates} {left right : HttpResponse}

theorem rate?_congr (status : left.statusCode = right.statusCode)
    (given : left.rate = right.rate) :
    (HttpOutcome.answered left).rate? = (HttpOutcome.answered right).rate? := by
  simp only [HttpOutcome.rate?, status, given]

theorem HttpOutcome.Follows.congr
    (follows : (HttpOutcome.answered right).Follows rates currency)
    (status : left.statusCode = right.statusCode)
    (given : left.rate = right.rate) :
    (HttpOutcome.answered left).Follows rates currency where
  found rate answered :=
    follows.found rate ((rate?_congr status given).symm.trans answered)
  missing response same absent := by
    cases same
    exact follows.missing right rfl (status.symm.trans absent)

theorem rate?_of_not_success {status : Nat} (response : HttpResponse)
    (same : response.statusCode = status)
    (outside : ¬ (200 ≤ status ∧ status < 300)) :
    (HttpOutcome.answered response).rate? = none := by
  rw [HttpOutcome.rate?, same, if_neg outside]

/-- The service gives its rate or refuses, or its fault makes it fail. -/
theorem gives_or_fails (world : World) (wiring : Wiring)
    (fault : RateService.FaultConfig) (currency : String) :
    (HttpOutcome.answered
        ((wiring currency).answer world.unicode fault)).Gives
      (serviceRates world wiring) currency ∨
    fault.mode = .error ∧
      ((wiring currency).answer world.unicode fault).statusCode = 500 := by
  cases target : wiring currency with
  | rate parameter =>
      have has : serviceRates world wiring currency =
          RateService.tableRate world.unicode parameter := by
        rw [serviceRates, target]
        rfl
      cases RateService.getRate_cases world.unicode fault parameter with
      | faulty mode raised => exact Or.inr ⟨mode, raised⟩
      | unknown missing raised =>
          refine Or.inl (HttpOutcome.Gives.refusal (has.trans missing) ?_)
          refine ⟨lt_of_eq_of_lt raised (by decide), ?_⟩
          exact rate?_of_not_success _ raised (by decide)
      | found rate listed returned given =>
          exact Or.inl
            (HttpOutcome.Gives.success (has.trans listed) returned given)
  | health =>
      have has : serviceRates world wiring currency = none := by
        rw [serviceRates, target]
        rfl
      exact Or.inl (HttpOutcome.Gives.refusal has
        ⟨(by decide : 200 < 500), rfl⟩)
  | elsewhere response refuses =>
      have has : serviceRates world wiring currency = none := by
        rw [serviceRates, target]
        rfl
      exact Or.inl (HttpOutcome.Gives.refusal has refuses)

/-- An answer says what the table says. -/
theorem AnswersTo.follows {outcome : HttpOutcome}
    (answers : AnswersTo world wiring fault currency outcome) :
    outcome.Follows (serviceRates world wiring) currency := by
  cases outcome with
  | raised error =>
      constructor
      · intro rate impossible
        cases impossible
      · intro response impossible
        cases impossible
  | answered response =>
      apply HttpOutcome.Follows.congr ?_ answers.1 answers.2
      rcases gives_or_fails world wiring fault currency with
        given | ⟨_, failed⟩
      · exact given.follows
      · constructor
        · intro rate answered
          rw [rate?_of_not_success _ failed (by decide)] at answered
          cases answered
        · intro other same absent
          cases same
          rw [failed] at absent
          cases absent

end Answers

/-! ## Deployments -/

abbrev DeployedConfig : Type :=
  Config appSig (State × RateService.FaultConfig) Tid

abbrev DeployedPermit : Type :=
  Permit appSig (State × RateService.FaultConfig) Tid Choice
    (Event ⊕ RateService.FaultBody)

/-- The system beside the rate service, whose fault can be switched at any
time. -/
def deployed (world : World) :
    System appSig (State × RateService.FaultConfig) Tid Choice
      (Event ⊕ RateService.FaultBody) :=
  (system world).attach RateService.setFault

/-- Runs in which an answer for a currency is the one of the service. -/
def served (world : World) (wiring : Wiring) : DeployedPermit where
  command both _ command choice :=
    match command with
    | .httpGet currency => AnswersTo world wiring both.2 currency choice.http
    | _ => True
  env _ _ := True

/-- A configuration that the deployment reaches; the service starts without a
fault. -/
def Deploys (world : World) (wiring : Wiring) (config : DeployedConfig) :
    Prop :=
  (deployed world).Reachable (served world wiring)
    (start.beside RateService.noFault) config

section Deployed

variable {world : World} {wiring : Wiring} {config : DeployedConfig}

/-- Whatever the faults, the rates are constant. -/
theorem Deploys.reaches (deploys : Deploys world wiring config) :
    Reaches world (constantRates (serviceRates world wiring)) config.own := by
  refine System.Reachable.own ?_ (fun _ _ _ => trivial) deploys
  intro both task command choice permitted
  cases command with
  | httpGet currency => exact AnswersTo.follows permitted
  | _ => exact trivial

/-- The rates of the table, as the column keeps them. -/
def storedRates : List (Numeric 8) :=
  RateService.rates.filterMap fun entry =>
    (RateService.numeral? entry.2).bind (Numeric.coerce 18 8)

theorem mem_storedRates {currency : String} {rate : Decimal}
    {stored : Numeric 8}
    (served : serviceRates world wiring currency = some rate)
    (kept : Numeric.coerce 18 8 rate = some stored) :
    stored ∈ storedRates := by
  rw [serviceRates] at served
  cases arrives : wiring currency with
  | rate parameter =>
      rw [arrives] at served
      rcases Option.bind_eq_some_iff.mp served with ⟨text, entry, parsed⟩
      refine List.mem_filterMap.mpr ⟨_, Dict.mem_of_get? entry, ?_⟩
      rw [parsed, Option.bind_some, kept]
  | health =>
      rw [arrives] at served
      cases served
  | elsewhere response refuses =>
      rw [arrives] at served
      cases served

/-- However often faults were switched on and off, every row was stored for a
published event, at the rate that the service's table has for it. -/
theorem deployed_rows_at_table_rates (deploys : Deploys world wiring config)
    {row : StoredTransaction} (member : row ∈ config.shared.1.db.table) :
    row.rate ∈ storedRates ∧ ∃ event ∈ published world config.shared.1,
      RowFor (serviceRates world wiring) event row := by
  rcases storable_of_stored deploys.reaches member with
    ⟨event, listed, rowFor, _⟩
  rcases rowFor.converted with ⟨rate, _, known, _, kept, _⟩
  exact ⟨mem_storedRates known kept, event, listed, rowFor⟩

end Deployed

/-! ### A fault that is switched off in time -/

abbrev DeployedAction : Type :=
  Action Tid Choice (Event ⊕ RateService.FaultBody)

instance (world : World) (wiring : Wiring) (fault : RateService.FaultConfig)
    (currency : String) (outcome : HttpOutcome) :
    Decidable (AnswersTo world wiring fault currency outcome) :=
  match outcome with
  | .raised _ => isTrue trivial
  | .answered _ => instDecidableAnd

def servedGuard (world : World) (wiring : Wiring) :
    Guard appSig (State × RateService.FaultConfig) Tid Choice
      (Event ⊕ RateService.FaultBody) where
  command both _ command choice :=
    match command with
    | .httpGet currency =>
        decide (AnswersTo world wiring both.2 currency choice.http)
    | _ => true
  env _ _ := true

theorem respects_servedGuard (world : World) (wiring : Wiring) :
    (servedGuard world wiring).Respects (served world wiring) where
  command := by
    intro both task command choice passed
    cases command with
    | httpGet currency =>
        have answers : AnswersTo world wiring both.2 currency choice.http :=
          of_decide_eq_true passed
        exact answers
    | _ => exact trivial
  env := fun _ _ _ => trivial

/-- What a guarded run of the deployment ends in is reachable. -/
theorem deploys_of_run {world : World} {wiring : Wiring}
    {actions : List DeployedAction} {shows : DeployedConfig → Bool}
    (taken : ((deployed world).run (servedGuard world wiring)
      (start.beside RateService.noFault) actions).any shows = true) :
    ∃ config, Deploys world wiring config ∧ shows config = true := by
  rcases (Option.any_eq_true _ _).mp taken with ⟨config, ran, shown⟩
  exact ⟨config,
    System.Reachable.of_run (respects_servedGuard world wiring) ran, shown⟩

def faulty : RateService.FaultConfig :=
  { RateService.noFault with mode := .error }

/-- The service answers the request for euros. -/
def answeredUnder (fault : RateService.FaultConfig) : Choice :=
  { http := .answered
      ((Target.rate "EUR").answer (coffeeWorld unbounded).unicode fault) }

/-- The coffee is published and read while the service fails; the worker
makes so many steps. -/
def readUnderFault (count : Nat) : List DeployedAction :=
  .env (.inr { mode := some "error" }) ::
    (post 0 coffee {} ++ launch 0 ++
      steps (.consume 0) count (answeredUnder faulty)).map Action.beside

/-- The first attempt fails, and then the fault is switched off. -/
def faultInTime : List DeployedAction :=
  readUnderFault 7 ++ .env (.inr { mode := some "ok" }) ::
    (steps (.consume 0) 12 (answeredUnder RateService.noFault)).map
      Action.beside

theorem deployed_rows_at_table_rates_coffee :
    ∃ config, Deploys (coffeeWorld unbounded) .rate config ∧
      ∃ row ∈ config.shared.1.db.table, row.id = "coffee" ∧
        row.rate ∈ storedRates ∧
          ∃ event ∈ published (coffeeWorld unbounded) config.shared.1,
            RowFor (serviceRates (coffeeWorld unbounded) .rate) event row := by
  have taken : ((deployed (coffeeWorld unbounded)).run
      (servedGuard (coffeeWorld unbounded) .rate)
      (start.beside RateService.noFault)
      faultInTime).any (fun config =>
        config.shared.1.db.table.any fun row => row.id = "coffee") = true := by
    decide +kernel
  rcases deploys_of_run taken with ⟨config, deploys, shown⟩
  rcases List.any_eq_true.mp shown with ⟨row, member, same⟩
  exact ⟨config, deploys, row, member, of_decide_eq_true same,
    deployed_rows_at_table_rates deploys member⟩

/-! ## When the fault is over -/

/-- Runs in which every command succeeds, the service answers without a fault,
and operators only kill and start workers. -/
def untroubled (world : World) (wiring : Wiring) : DeployedPermit where
  command both _ command choice := choice.fate = .ok ∧
    ∀ currency, command = .httpGet currency →
      (∃ response, choice.http = .answered response) ∧
        AnswersTo world wiring both.2 currency choice.http
  env both event :=
    match event with
    | .inl event =>
        (recovering (serviceRates world wiring)).env both.1 event
    | .inr body => (RateService.setFault both.2 body).mode = .ok

/-- The system's part of such runs. -/
def answeredAt (world : World) (wiring : Wiring)
    (fault : RateService.FaultConfig) : AppPermit where
  command state task command choice :=
    (untroubled world wiring).command (state, fault) task command choice
  env := (recovering (serviceRates world wiring)).env

section Untroubled

variable {world : World} {wiring : Wiring} {config : DeployedConfig}
  {fault : RateService.FaultConfig}

theorem HttpOutcome.Gives.congr {rates : Rates} {currency : String}
    {left right : HttpResponse}
    (gives : (HttpOutcome.answered right).Gives rates currency)
    (status : left.statusCode = right.statusCode)
    (given : left.rate = right.rate) :
    (HttpOutcome.answered left).Gives rates currency := by
  rcases gives with ⟨response, same, gives⟩
  cases same
  refine ⟨left, rfl, ?_⟩
  cases known : rates currency with
  | none =>
      rw [known] at gives
      exact ⟨lt_of_eq_of_lt status gives.1,
        (rate?_congr status given).trans gives.2⟩
  | some rate =>
      rw [known] at gives
      exact ⟨status.trans gives.1, given.trans gives.2⟩

theorem serving_answeredAt (fine : fault.mode ≠ .error) :
    Serving (serviceRates world wiring)
      (fun currency => (wiring currency).answer world.unicode fault)
      (answeredAt world wiring fault) where
  healthy := by
    intro state task command choice permitted
    refine ⟨permitted.1, ?_⟩
    intro currency asked
    rcases permitted.2 currency asked with ⟨⟨response, answered⟩, answers⟩
    rw [answered] at answers ⊢
    rcases gives_or_fails world wiring fault currency with
      gives | ⟨faulty, _⟩
    · exact gives.congr answers.1 answers.2
    · exact absurd faulty fine
  obliging := by
    intro state task command
    cases command with
    | httpGet currency =>
        refine ⟨rfl, ?_⟩
        intro asked same
        cases same
        exact ⟨⟨_, rfl⟩, rfl, rfl⟩
    | _ => exact ⟨rfl, fun _ different => nomatch different⟩
  events := fun _ _ => id

/-- However often faults were switched on and off, once the fault is switched
off the run can be completed, as long as nothing was dead-lettered that could
have been stored.  The table then has a row for exactly the published events
that can be stored at the rates of the service's table.  The settings must have
no bound on the stream, a batch size of at least 1 and an idle time of at least
0, and the stream must be text. -/
theorem faults_only_delay (unbounded : world.settings.streamMaxlen = none)
    (batch : 1 ≤ world.settings.batchSize)
    (nonnegative : 0 ≤ world.settings.minIdleMs)
    (deploys : Deploys world wiring config)
    (legible : Legible config.shared.1)
    (letters : ∀ letter ∈ config.shared.1.redis.deadLetters,
      Hopeless world (serviceRates world wiring) config.shared.1
        letter.origin)
    (functional : Functional (published world config.shared.1)) :
    ∃ after, (deployed world).Reachable (untroubled world wiring) config
        after ∧
      (∀ row ∈ after.shared.1.db.table,
        ∃ event ∈ published world config.shared.1,
          RowFor (serviceRates world wiring) event row) ∧
      ∀ event ∈ published world config.shared.1,
        storable (serviceRates world wiring) event = true ↔
          ∃ row ∈ after.shared.1.db.table,
            RowFor (serviceRates world wiring) event row := by
  let fine := RateService.noFault
  have switched : (deployed world).step config (.env (.inr {})) =
      some (config.own.beside fine) := rfl
  have permitted : (untroubled world wiring).Allows config (.env (.inr {})) :=
    (rfl : fine.mode = .ok)
  have begun : (deployed world).Reachable (untroubled world wiring) config
      (config.own.beside fine) :=
    System.Reachable.start.step permitted switched
  have serving : Serving (serviceRates world wiring)
      (fun currency => (wiring currency).answer world.unicode fine)
      (answeredAt world wiring fine) := serving_answeredAt (by decide)
  have resumable : Resumable world (serviceRates world wiring) config.own :=
    ⟨unbounded, batch, nonnegative, deploys.reaches, legible, letters⟩
  rcases resumable.exists_final serving with
    ⟨after, recovery, reaches, final, events⟩
  have lifted : (deployed world).Reachable (untroubled world wiring)
      (config.own.beside fine) (after.beside fine) :=
    System.Reachable.beside fine (fun _ _ _ _ permitted => permitted)
      (fun _ _ permitted => permitted) recovery
  have listed : published world after.shared =
      published world config.shared.1 := events
  rw [← listed] at functional ⊢
  exact ⟨_, begun.trans lifted,
    ledger_of_final unbounded reaches final functional⟩

end Untroubled

/-! ### A fault that outlasts the delivery -/

theorem faults_only_delay_coffee :
    ∃ config, Deploys (coffeeWorld unbounded) .rate config ∧
      config.shared.1.Pending 0 ∧ config.shared.2.mode = .error ∧
        ∃ after, (deployed (coffeeWorld unbounded)).Reachable
            (untroubled (coffeeWorld unbounded) .rate) config after ∧
          ∃ row ∈ after.shared.1.db.table, row.id = "coffee" := by
  have taken : ((deployed (coffeeWorld unbounded)).run
      (servedGuard (coffeeWorld unbounded) .rate)
      (start.beside RateService.noFault)
      (readUnderFault 22)).any (fun config =>
        showsCoffeeOnly unbounded config.own &&
          showsPending 0 config.own &&
            decide (config.shared.2.mode = .error)) = true := by
    decide +kernel
  have fits : storable (serviceRates (coffeeWorld unbounded) .rate)
      coffeeEvent.toTransactionEventIn = true := by
    decide +kernel
  rcases deploys_of_run taken with ⟨config, deploys, shown⟩
  simp only [Bool.and_eq_true, decide_eq_true_eq] at shown
  rcases shown with ⟨⟨only, pending⟩, mode⟩
  rcases resumable_of_shows rfl (by decide) (by decide) deploys.reaches only
    with ⟨resumable, events⟩
  have listed : published (coffeeWorld unbounded) config.shared.1 =
      [coffeeEvent.toTransactionEventIn] := events
  have functional :
      Functional (published (coffeeWorld unbounded) config.shared.1) := by
    intro event member other otherMember _
    rw [listed, List.mem_singleton] at member otherMember
    rw [member, otherMember]
  rcases faults_only_delay rfl (by decide) (by decide) deploys
      resumable.legible resumable.letters functional with
    ⟨after, recovery, _, stored⟩
  have here : coffeeEvent.toTransactionEventIn ∈
      published (coffeeWorld unbounded) config.shared.1 := by
    rw [listed]
    exact List.mem_singleton_self _
  rcases (stored _ here).mp fits with ⟨row, member, rowFor⟩
  exact ⟨config, deploys, pending_of_shows pending, mode, after, recovery, row,
    member, rowFor.id⟩

end TxnEvents
