import TxnEvents.Delivery.Invariant

/-!
# No accepted event is lost

Where an event is that `POST /events` has answered with 202: in the stream and
not yet handed out, pending and in the stream, stored as a row, or in the
dead-letter stream.
-/

namespace TxnEvents

open Effects Arith Python Streams

/-- The body was answered with 202 and this stream id. -/
def Accepted (state : State) (body : EventBody) (id : Nat) : Prop :=
  ∃ task response,
    .noted task (.answered (.ingest body) (.ok (.accepted response))) ∈
      state.history ∧ response.streamId = id

/-- The entry is in the stream, and no read has handed it out. -/
def Undelivered (state : State) (id : Nat) : Prop :=
  state.redis.stream.Live id ∧ ¬ state.HandedOut id

/-- The entry is in the stream and on the pending list. -/
def PendingInStream (state : State) (id : Nat) : Prop :=
  state.redis.stream.Live id ∧ state.Pending id

/-- The event is in the dead-letter stream, under its own fields. -/
def InDeadLetters (world : World) (state : State) (body : EventBody)
    (id : Nat) : Prop :=
  ∃ receivedAt reason,
    ⟨id, (publishedFields world.json
      (acceptedEvent world body receivedAt)).set "reason" reason⟩ ∈
        state.redis.deadLetters

/-- The event is somewhere. -/
def Safekept (world : World) (state : State) (body : EventBody) (id : Nat) :
    Prop :=
  Undelivered state id ∨ PendingInStream state id ∨
    InTable body.id state ∨ InDeadLetters world state body id

/-- A promise with an account of its entry is kept. -/
theorem safekept_of_promised {world : World} {state : State}
    {body : EventBody} {response : AcceptedResponse} {id : Nat}
    (kept : Kept world state) (same : response.streamId = id)
    (promised :
      Promised world state (.ingest body) (.ok (.accepted response))) :
    Safekept world state body id := by
  obtain ⟨_, receivedAt, entry⟩ := promised
  rw [same] at entry
  have within : id < state.redis.stream.entries.length := by
    obtain ⟨wire, found, _⟩ := Option.bind_eq_some_iff.mp entry
    exact (List.getElem?_eq_some_iff.mp found).1
  by_cases retired : state.Retired id
  · obtain ⟨fields, found, account⟩ := kept.accounted id retired
    have fieldsEq : fields =
        publishedFields world.json (acceptedEvent world body receivedAt) := by
      rw [entry] at found
      exact (Option.some.inj found).symm
    rw [fieldsEq] at account
    rcases account with
      ⟨letter, member, origin, reason, letterFields⟩ |
        ⟨event, parsed, stored⟩
    · refine Or.inr (Or.inr (Or.inr ⟨receivedAt, reason, ?_⟩))
      rw [← letterFields, ← origin]
      exact member
    · rw [eq_acceptedEvent_of_parseFields parsed, acceptedEvent_id] at stored
      exact Or.inr (Or.inr (Or.inl stored))
  · have live := kept.live id within retired
    by_cases handedOut : state.HandedOut id
    · exact Or.inr (Or.inl ⟨live,
        State.pending_of_not_retired retired handedOut⟩)
    · exact Or.inl ⟨live, handedOut⟩

/-- In a run in which trimming spares unfinished entries, every accepted event
is somewhere. -/
theorem safekept_of_sparing {world : World} {config : AppConfig}
    (reaches : Reaches world (sparing True world) config) {body : EventBody}
    {id : Nat} (accepted : Accepted config.shared body id) :
    Safekept world config.shared body id := by
  have safe := reaches_safe reaches
  obtain ⟨task, response, member, same⟩ := accepted
  exact safekept_of_promised (safe.kept trivial) same
    (safe.promises task _ _ member)

/-- Without a bound on the stream, every run spares unfinished entries. -/
theorem sparing_of_unbounded {world : World} {permit : AppPermit}
    {config : AppConfig} (unbounded : world.settings.streamMaxlen = none)
    (reaches : Reaches world permit config) :
    Reaches world (sparing True world) config := by
  refine System.Reachable.mono ?_ (fun _ _ _ => trivial) reaches
  intro state task command choice _
  cases command with
  | xadd fields maxlen =>
      intro _ limit bound
      rw [unbounded] at bound
      cases bound
  | _ => exact trivial

/-- Without a bound on the stream, no accepted event is ever lost: in every
state of every run it is undelivered, pending, stored or dead-lettered. -/
theorem accepted_event_never_lost {world : World}
    (unbounded : world.settings.streamMaxlen = none) {config : AppConfig}
    (reaches : Reaches world Permit.any config) {body : EventBody} {id : Nat}
    (accepted : Accepted config.shared body id) :
    Safekept world config.shared body id := by
  exact safekept_of_sparing (sparing_of_unbounded unbounded reaches) accepted

/-! ## A run with one event -/

/-- 12.34 EUR at an hour without an offset. -/
def coffee : EventBody where
  id := "coffee"
  userId := "ada"
  amount := .finite false 1234 (-2)
  amountFinite := rfl
  currency := "eur"
  timestamp := ⟨0, none⟩

/-- The event that `coffee` becomes when it arrives at the start of the
clock. -/
def coffeeEvent : TransactionEvent where
  id := "coffee"
  userId := "ada"
  amount := .finite false 1234 (-2)
  amountFinite := rfl
  currency := "EUR"
  timestamp := ⟨0, 0⟩
  receivedAt := ⟨0, some 0⟩

def unbounded : Settings :=
  { Settings.defaults with streamMaxlen := none }

def coffeeWorld (settings : Settings) : World :=
  .small settings [(coffeeEvent, "coffee at noon")] (by decide) (by decide)

/-- The 202 for `coffee`. -/
def coffeeAccepted : Happening :=
  .noted (.request 0)
    (.answered (.ingest coffee) (.ok (.accepted ⟨"coffee", 0⟩)))

theorem accepted_coffee {state : State}
    (member : coffeeAccepted ∈ state.history) : Accepted state coffee 0 :=
  ⟨.request 0, ⟨"coffee", 0⟩, member, rfl⟩

/-- A worker reads the coffee and is killed, and another one claims it. -/
def deliverTwice : List AppAction :=
  post 0 coffee {} ++ launch 0 ++
    [.run (.consume 0) {}, .env (.kill 0), .env (.tick 15000)] ++
      launch 1 ++ steps (.reclaim 1) 2 {}

theorem accepted_event_never_lost_coffee :
    ∃ config, Reaches (coffeeWorld unbounded) Permit.any config ∧
      Accepted config.shared coffee 0 ∧
        .killed 0 ∈ config.shared.history ∧
          deliveries config.shared.history 0 = 2 ∧
            Safekept (coffeeWorld unbounded) config.shared coffee 0 := by
  have taken : ((system (coffeeWorld unbounded)).run Guard.any start
      deliverTwice).any
        (fun config => config.shared.history.contains coffeeAccepted &&
          config.shared.history.contains (.killed 0) &&
            decide (deliveries config.shared.history 0 = 2)) =
      true := by decide +kernel
  obtain ⟨config, reaches, shown⟩ := reaches_of_run respects_any taken
  simp only [Bool.and_eq_true, decide_eq_true_eq] at shown
  obtain ⟨⟨answered, killed⟩, twice⟩ := shown
  have accepted : Accepted config.shared coffee 0 :=
    accepted_coffee (List.contains_iff_mem.mp answered)
  exact ⟨config, reaches, accepted, List.contains_iff_mem.mp killed, twice,
    accepted_event_never_lost rfl reaches accepted⟩

/-! ## Trimming -/

/-- When every publish leaves the unfinished entries within the bound, no
entry that is unread or pending leaves the stream, and no accepted event is
lost. -/
theorem sparing_trims_keep_unfinished {world : World} {config : AppConfig}
    (reaches : Reaches world (sparing True world) config) :
    (∀ id < config.shared.redis.stream.entries.length,
        ¬ config.shared.HandedOut id ∨ config.shared.Pending id →
          config.shared.redis.stream.Live id) ∧
      ∀ body id, Accepted config.shared body id →
        Safekept world config.shared body id := by
  constructor
  · intro id within unfinished
    apply ((reaches_safe reaches).kept trivial).live id within
    rintro ⟨handedOut, notPending⟩
    rcases unfinished with unread | pending
    · exact unread handedOut
    · exact notPending pending
  · intro body id accepted
    exact safekept_of_sparing reaches accepted

def tight : Settings :=
  { Settings.defaults with streamMaxlen := some 1 }

/-- Whether the group is done with the message. -/
def retires (state : State) (id : MsgId) : Bool :=
  state.redis.group.any fun group =>
    decide (id < group.lastDelivered) && !decide (group.Pending id)

theorem retired_of_retires {state : State} {id : MsgId}
    (shown : retires state id = true) : state.Retired id := by
  obtain ⟨group, found, facts⟩ := (Option.any_eq_true _ _).mp shown
  simp only [Bool.and_eq_true, Bool.not_eq_true', decide_eq_true_eq,
    decide_eq_false_iff_not] at facts
  refine ⟨⟨group, found, facts.1⟩, ?_⟩
  rintro ⟨other, foundToo, pending⟩
  rw [found] at foundToo
  cases foundToo
  exact facts.2 pending

/-- There is room for one entry, and a publish must find all others done. -/
def allDone : AppGuard where
  command state _ command _ :=
    match command with
    | .xadd _ _ =>
        (List.range state.redis.stream.entries.length).all (retires state)
    | _ => true
  env _ _ := true

theorem respects_allDone :
    allDone.Respects (sparing True (coffeeWorld tight)) where
  command := by
    intro state task command choice passed
    cases command with
    | xadd fields maxlen =>
        intro _ limit bound id within unfinished
        have one : (1 : Int) = limit := Option.some.inj bound
        rcases Nat.lt_or_eq_of_le within with old | new
        · have done := List.all_eq_true.mp passed id (List.mem_range.mpr old)
          exact absurd (retired_of_retires done) unfinished
        · omega
    | _ => exact trivial
  env := fun _ _ _ => trivial

/-- The coffee is stored before it is published again, which trims it. -/
theorem sparing_trims_keep_unfinished_coffee :
    ∃ config : AppConfig, Accepted config.shared coffee 0 ∧
      config.shared.redis.stream.entries.length = 2 ∧
        ¬ config.shared.redis.stream.Live 0 ∧
      (∀ id < config.shared.redis.stream.entries.length,
        ¬ config.shared.HandedOut id ∨ config.shared.Pending id →
          config.shared.redis.stream.Live id) ∧
      ∀ body id, Accepted config.shared body id →
        Safekept (coffeeWorld tight) config.shared body id := by
  have taken : ((system (coffeeWorld tight)).run allDone start
      (post 0 coffee {} ++ launch 0 ++ storeOne 0 (.finite false 11 (-1)) ++
        post 1 coffee { trimTo := 1 })).any
        (fun config => config.shared.history.contains coffeeAccepted &&
          decide (config.shared.redis.stream.entries.length = 2) &&
            decide (config.shared.redis.stream.trimmed = 1)) =
      true := by decide +kernel
  obtain ⟨config, reaches, shown⟩ := reaches_of_run respects_allDone taken
  simp only [Bool.and_eq_true, decide_eq_true_eq] at shown
  obtain ⟨⟨answered, length⟩, trimmed⟩ := shown
  refine ⟨config, accepted_coffee (List.contains_iff_mem.mp answered), length,
    ?_, sparing_trims_keep_unfinished reaches⟩
  rintro ⟨kept, _⟩
  rw [trimmed] at kept
  cases kept

/-- With room for one entry, a second publish drops the first event before
anybody has read it. -/
theorem tight_stream_loses_coffee :
    ∃ config, Reaches (coffeeWorld tight) Permit.any config ∧
      Accepted config.shared coffee 0 ∧ ¬ config.shared.HandedOut 0 ∧
        ¬ config.shared.redis.stream.Live 0 ∧
          ¬ Safekept (coffeeWorld tight) config.shared coffee 0 := by
  have taken : ((system (coffeeWorld tight)).run Guard.any start
      (post 0 coffee {} ++ post 1 coffee { trimTo := 1 })).any
        (fun config =>
          config.shared.history.contains coffeeAccepted &&
            decide (config.shared.redis.stream.trimmed = 1) &&
            config.shared.redis.group.isNone &&
            config.shared.db.table.isEmpty &&
            config.shared.redis.deadLetters.isEmpty) =
      true := by decide +kernel
  obtain ⟨config, reaches, shown⟩ := reaches_of_run respects_any taken
  simp only [Bool.and_eq_true, decide_eq_true_eq, Option.isNone_iff_eq_none,
    List.isEmpty_iff] at shown
  obtain ⟨⟨⟨⟨answered, trimmed⟩, noGroup⟩, noRows⟩, noLetters⟩ := shown
  have unread : ¬ config.shared.HandedOut 0 := by
    rintro ⟨group, found, _⟩
    rw [noGroup] at found
    cases found
  have gone : ¬ config.shared.redis.stream.Live 0 := by
    rintro ⟨kept, _⟩
    rw [trimmed] at kept
    cases kept
  refine ⟨config, reaches, accepted_coffee (List.contains_iff_mem.mp answered),
    unread, gone, ?_⟩
  rintro (waiting | pending | stored | ⟨receivedAt, reason, lettered⟩)
  · exact gone waiting.1
  · exact gone pending.1
  · rw [InTable, noRows] at stored
    cases stored
  · rw [noLetters] at lettered
    cases lettered

end TxnEvents
