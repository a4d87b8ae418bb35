import TxnEvents.Delivery.Handling

/-!
# The safety invariant of the whole system

The rounds of the two loops, the boot of a worker and the requests are right
under the safety discipline, and so is every interleaving of them.
-/

namespace TxnEvents

open Effects Arith Python Streams App

/-! ## Entries as they arrive -/

/-- What a read or a claim hands to the parser. -/
structure Handed (id : Nat) (fields : Dict) (state : State) : Prop where
  entry : state.entryFields id = some fields
  delivered : ∃ task, .delivered task id ∈ state.history

theorem Handed.grow {before after : State} {id : Nat} {fields : Dict}
    (handed : Handed id fields before) (grows : Grows before after) :
    Handed id fields after where
  entry := grows.entryFields handed.entry
  delivered := by
    obtain ⟨task, member⟩ := handed.delivered
    exact ⟨task, grows.delivered member⟩

/-- Every entry was handed out, at least as often as its count says. -/
def AllHanded (deliveryCounts : MsgId → Nat) (entries : List (MsgId × Dict))
    (state : State) : Prop :=
  ∀ id fields, (id, fields) ∈ entries →
    Handed id fields state ∧ deliveryCounts id ≤ deliveries state.history id

theorem AllHanded.lasting (deliveryCounts : MsgId → Nat)
    (entries : List (MsgId × Dict)) :
    Lasting (AllHanded deliveryCounts entries) := by
  intro before after grows all id fields member
  obtain ⟨handed, count⟩ := all id fields member
  exact ⟨handed.grow grows, Nat.le_trans count (grows.deliveries_le id)⟩

/-- One delivery is the least an entry has when it is handed out. -/
theorem allHanded_one {entries : List (MsgId × Dict)} {state : State}
    (handed : ∀ id fields, (id, fields) ∈ entries → Handed id fields state) :
    AllHanded (fun _ => 1) entries state := by
  intro id fields member
  obtain ⟨task, delivered⟩ := (handed id fields member).delivered
  exact ⟨handed id fields member, deliveries_pos_of_mem delivered⟩

theorem mem_decodeEntries {state : State} {ids : List MsgId}
    {entries : List (MsgId × Dict)}
    (decoded : state.decodeEntries ids = some entries) :
    ∀ id fields, (id, fields) ∈ entries →
      id ∈ ids ∧ state.entryFields id = some fields := by
  induction ids generalizing entries with
  | nil =>
      cases decoded
      intro id fields member
      cases member
  | cons first rest inductionHypothesis =>
      simp only [State.decodeEntries] at decoded
      split at decoded
      case h_1 firstFields later firstEq laterEq =>
        cases decoded
        intro id fields member
        rcases List.mem_cons.mp member with same | inRest
        · cases same
          exact ⟨List.mem_cons_self, firstEq⟩
        · obtain ⟨inIds, entry⟩ := inductionHypothesis laterEq id fields inRest
          exact ⟨List.mem_cons_of_mem _ inIds, entry⟩
      case h_2 => cases decoded

/-- Entries that are handed out are in the history as deliveries. -/
theorem handed_of_handOut {state : State} {task : Tid} {group : Group}
    {ids : List MsgId} {entries : List (MsgId × Dict)}
    (decoded : state.decodeEntries ids = some entries) :
    ∀ id fields, (id, fields) ∈ entries →
      Handed id fields (state.handOut task group ids) := by
  intro id fields member
  obtain ⟨inIds, entry⟩ := mem_decodeEntries decoded id fields member
  refine ⟨entry, task, ?_⟩
  refine List.mem_append_left _ (List.mem_reverse.mpr ?_)
  exact List.mem_map.mpr ⟨id, inIds, rfl⟩

section Rounds

variable {spare : Prop} {world : World} {task : Tid} {state : State}

def AllCarried (world : World) (messages : List StreamMessage)
    (state : State) : Prop :=
  ∀ msg ∈ messages, Carries world msg state

theorem AllCarried.lasting (world : World) (messages : List StreamMessage) :
    Lasting (AllCarried world messages) := by
  intro before after grows all msg member
  exact Carries.lasting world msg before after grows (all msg member)

/-- What a source of messages establishes. -/
def BatchPost (world : World) :
    Except PyException (List StreamMessage) → State → Prop
  | .ok messages, state => AllCarried world messages state
  | .error _, _ => True

theorem wp_unparseable {id : Nat} {fields : Dict} {error : PyException}
    (handed : Handed id fields state) :
    (safety spare world).wp task
      (deadLetterFields id fields ("unparseable: " ++ error.text))
      (fun _ _ => True) state := by
  refine wp_deadLetterFields ⟨handed.entry, ?_⟩
  intro same
  exact absurd same (honest_ne (by decide) (by decide))

theorem wp_parseEntries {deliveryCounts : MsgId → Nat}
    {entries : List (MsgId × Dict)}
    (all : AllHanded deliveryCounts entries state) :
    (safety spare world).wp task (parseEntries world deliveryCounts entries)
      (BatchPost world) state := by
  induction entries generalizing state with
  | nil =>
      intro msg member
      cases member
  | cons entry rest inductionHypothesis =>
      obtain ⟨id, fields⟩ := entry
      obtain ⟨handed, count⟩ := all id fields List.mem_cons_self
      have restHanded : AllHanded deliveryCounts rest state :=
        fun other otherFields member =>
          all other otherFields (List.mem_cons_of_mem _ member)
      have lasting := AllHanded.lasting deliveryCounts rest
      simp only [parseEntries]
      split
      case h_1 error parsed =>
        split
        case isTrue =>
          refine Discipline.wp_seq
            (wp_carry lasting restHanded (wp_unparseable handed)) ?_ ?_
          · intro _ after reached
            refine Discipline.wp_seq
              (wp_free trivial lasting reached.2) ?_ ?_
            · intro _ later held
              exact inductionHypothesis held
            · intro error later _
              exact trivial
          · intro error after _
            exact trivial
        case isFalse => exact trivial
      case h_2 event parsed =>
        have carries : Carries world ⟨id, event, deliveryCounts id, fields⟩
            state :=
          ⟨handed.entry, handed.delivered, parsed, count⟩
        refine Discipline.wp_seq
          (wp_carry (Carries.lasting world _) carries
            (inductionHypothesis restHanded)) ?_ ?_
        · intro messages after reached msg member
          rcases List.mem_cons.mp member with rfl | inRest
          · exact reached.2
          · exact reached.1 msg inRest
        · intro error after _
          exact trivial

theorem wp_read :
    (safety spare world).wp task (read world) (BatchPost world) state := by
  have entries : (safety spare world).wp task
      (xreadgroup world.settings.batchSize)
      (fun outcome after =>
        match outcome with
        | .ok entries => AllHanded (fun _ => 1) entries after
        | .error _ => True)
      state := by
    refine wp_effect trivial ?_
    intro before choice reply after _ taken
    cases reply with
    | error error => exact trivial
    | ok entries =>
        rcases exec_xreadgroup taken with
          ⟨_, error, failed⟩ | ⟨group, _, reached, decoded⟩
        · cases failed
        · rw [reached]
          exact allHanded_one (handed_of_handOut (decoded entries rfl))
  refine Discipline.wp_seq entries ?_ ?_
  · intro entries after all
    split
    · intro msg member
      cases member
    · exact wp_parseEntries all
  · intro error after _
    exact trivial

theorem wp_deliveryCount {id : Nat} {fields : Dict}
    (handed : Handed id fields state) :
    (safety spare world).wp task (deliveryCount id)
      (fun outcome after =>
        match outcome with
        | .ok count => count ≤ deliveries after.history id
        | .error _ => True)
      state := by
  have lasting : Lasting (Handed id fields) :=
    fun _ _ grows before => before.grow grows
  have counts : (safety spare world).wp task (xpendingRange id)
      (fun outcome after =>
        match outcome with
        | .ok counts => counts.headD 1 ≤ deliveries after.history id
        | .error _ => True)
      state := by
    refine wp_paying lasting.stable handed ?_ ?_
    · intro before choice _ _ _
      exact owes_of_free trivial
    · intro before choice reply after safe held taken
      cases reply with
      | error error => exact trivial
      | ok counts =>
          obtain ⟨same, answered⟩ := exec_xpendingRange taken
          obtain ⟨group, found, rfl⟩ := answered counts rfl
          rw [same]
          cases counted : group.timesDelivered? id with
          | none =>
              obtain ⟨by_, member⟩ := held.delivered
              exact deliveries_pos_of_mem member
          | some count =>
              obtain ⟨entry, member, sameId, sameCount⟩ :=
                Group.timesDelivered?_eq_some counted
              have exact_ := safe.counted.exact group found entry member
              rw [sameId, sameCount] at exact_
              exact Nat.le_of_eq exact_
  refine Discipline.wp_seq counts ?_ ?_
  · intro counts after bound
    exact bound
  · intro error after _
    exact trivial

theorem wp_lookUpCounts {deliveryCounts : MsgId → Nat}
    {entries remaining : List (MsgId × Dict)}
    (within : ∀ entry ∈ remaining, entry ∈ entries)
    (all : AllHanded deliveryCounts entries state) :
    (safety spare world).wp task (lookUpCounts deliveryCounts remaining)
      (fun outcome after =>
        match outcome with
        | .ok counts => AllHanded counts entries after
        | .error _ => True)
      state := by
  induction remaining generalizing deliveryCounts state with
  | nil => exact all
  | cons entry rest inductionHypothesis =>
      obtain ⟨id, fields⟩ := entry
      have handed := (all id fields (within _ List.mem_cons_self)).1
      refine Discipline.wp_seq
        (wp_carry (AllHanded.lasting deliveryCounts entries) all
          (wp_deliveryCount handed)) ?_ ?_
      · intro count after reached
        refine inductionHypothesis
          (fun other member => within other (List.mem_cons_of_mem _ member)) ?_
        intro other otherFields member
        obtain ⟨otherHanded, bound⟩ := reached.2 other otherFields member
        refine ⟨otherHanded, ?_⟩
        by_cases same : other = id
        · rw [same, Function.update_self]
          exact reached.1
        · rw [Function.update_of_ne same]
          exact bound
      · intro error after _
        exact trivial

theorem wp_claimStale (minIdleMs : Int) :
    (safety spare world).wp task (claimStale world minIdleMs) (BatchPost world)
      state := by
  have claimed : (safety spare world).wp task
      (xautoclaim minIdleMs 0 world.settings.batchSize)
      (fun outcome after =>
        match outcome with
        | .ok reply => AllHanded (fun _ => 1) reply.claimed after
        | .error _ => True)
      state := by
    refine wp_effect trivial ?_
    intro before choice reply after _ taken
    cases reply with
    | error error => exact trivial
    | ok answer =>
        rcases exec_xautoclaim taken with
          ⟨_, error, failed⟩ | ⟨group, _, reached, decoded⟩
        · cases failed
        · rw [reached]
          exact allHanded_one (handed_of_handOut (decoded answer rfl))
  refine Discipline.wp_seq claimed ?_ ?_
  · intro reply after all
    split
    · intro msg member
      cases member
    · refine Discipline.wp_seq
        (wp_lookUpCounts (fun _ member => member) all) ?_ ?_
      · intro counts later counted
        exact wp_parseEntries counted
      · intro error later _
        exact trivial
  · intro error after _
    exact trivial

/-! ## The rounds -/

theorem wp_handleAll {messages : List StreamMessage}
    (carried : AllCarried world messages state) :
    (safety spare world).wp task (Prog.forEach messages (handle world))
      (fun _ _ => True) state := by
  refine Discipline.wp_forEach ?_ (fun _ _ => trivial) messages carried
  intro msg rest reached all
  have restCarried : AllCarried world rest reached :=
    fun other member => all other (List.mem_cons_of_mem _ member)
  refine Discipline.wp_mono ?_
    (wp_carry (AllCarried.lasting world rest) restCarried
      (wp_handle (all msg List.mem_cons_self)))
  intro outcome after held
  cases outcome with
  | ok value => exact held.2
  | error error => exact trivial

theorem wp_consumeRound :
    (safety spare world).wp task (consumeRound world) (fun _ _ => True) state := by
  refine Discipline.wp_seq wp_read ?_ ?_
  · intro messages after carried
    exact wp_handleAll carried
  · intro error after _
    exact trivial

theorem wp_reclaimRound :
    (safety spare world).wp task (reclaimRound world) (fun _ _ => True) state := by
  refine Discipline.wp_seq (wp_free trivial (Lasting.const True) trivial) ?_ ?_
  · intro _ after _
    refine Discipline.wp_seq (wp_claimStale world.settings.minIdleMs) ?_ ?_
    · intro messages later carried
      exact wp_handleAll carried
    · intro error later _
      exact trivial
  · intro error after _
    exact trivial

end Rounds

/-! ## Booting -/

/-- The commands of a boot. -/
def Command.Boots : Command → Prop
  | probe => True
  | random => True
  | sleep _ => True
  | xgroupCreate => True
  | _ => False

theorem uses_bootWorker (world : World) :
    (bootWorker world).Uses Command.Boots := by
  have probing : (probe.tryExcept fun exc =>
      if exc.cls.isDbException = true then
        (.raise (databaseUnavailable exc) : App Unit)
      else .raise exc).Uses Command.Boots := by
    refine Prog.Uses.tryExcept (Prog.Uses.perform trivial) ?_
    intro error
    split
    · exact trivial
    · exact trivial
  refine Prog.Uses.bind ?_ ?_
  · refine Prog.Uses.bind ?_ fun _ => trivial
    refine uses_retryAsync trivial (fun _ => trivial) probing ?_ _ _ _
    intro attempt exc delay
    exact trivial
  · intro _
    refine Prog.Uses.tryExcept (Prog.Uses.perform trivial) ?_
    intro error
    split
    · exact trivial
    · exact trivial

/-! ## Requests -/

theorem decodePairs_encodeFields (fields : Dict) :
    decodePairs (encodeFields fields) = some fields := by
  induction fields with
  | nil => rfl
  | cons entry rest inductionHypothesis =>
      change decodePairs ((.text entry.1, .text entry.2) :: encodeFields rest) =
        some (entry :: rest)
      simp [decodePairs, WireText.decode, inductionHypothesis]

/-- What is published comes back as it was. -/
theorem decodeFields_publishedFields (json : JsonCodec)
    (event : TransactionEvent) :
    decodeFields (encodeFields (publishedFields json event)) =
      some (publishedFields json event) := by
  rw [decodeFields, decodePairs_encodeFields, Option.map_some]
  simp [publishedFields, StreamEnvelope.toFields, Dict.ofPairs, Dict.set]

theorem promised_error (world : World) (state : State) (request : Request)
    (error : PyException) : Promised world state request (.error error) := by
  cases request with
  | ingest body => exact trivial
  | summary userId => exact trivial
  | transactions query => exact trivial

section Requests

variable {spare : Prop} {world : World} {task : Tid} {state : State}

theorem Snapshot.lasting (table : Table) : Lasting (Snapshot table) :=
  fun _ _ grows snapshot => snapshot.grow grows

/-- A query sees a table of the run. -/
theorem wp_select :
    (safety spare world).wp task (select.tryExcept reraiseClassified)
      (fun outcome after =>
        match outcome with
        | .ok table => Snapshot table after
        | .error _ => True)
      state := by
  have selected : (safety spare world).wp task select
      (fun outcome after =>
        match outcome with
        | .ok table => Snapshot table after
        | .error error => error.cls.isOwn = false)
      state := by
    refine wp_effect trivial ?_
    intro before choice reply after _ taken
    cases reply with
    | error error => exact error_foreign taken
    | ok table =>
        obtain ⟨same, reached⟩ := settle_ok taken
        cases same
        rw [reached]
        exact List.prefix_refl _
  refine Discipline.wp_tryExcept selected ?_ ?_
  · intro table after snapshot
    exact snapshot
  · intro error after foreign
    exact wp_reraiseClassified foreign fun _ _ => trivial

theorem wp_getSummary (userId : String) :
    (safety spare world).wp task (getSummary userId)
      (fun outcome after =>
        match outcome with
        | .ok response =>
            Promised world after (.summary userId) (.ok (.summary response))
        | .error _ => True)
      state := by
  have summed : (safety spare world).wp task (userSummary userId)
      (fun outcome after =>
        match outcome with
        | .ok answer => ∃ table, Snapshot table after ∧
            answer = summaryOf table userId
        | .error _ => True)
      state := by
    refine Discipline.wp_seq wp_select ?_ ?_
    · intro table after snapshot
      exact ⟨table, snapshot, rfl⟩
    · intro error after _
      exact trivial
  refine Discipline.wp_seq summed ?_ ?_
  · intro answer after reached
    obtain ⟨table, snapshot, same⟩ := reached
    cases answered : summaryResponse userId answer.1 answer.2 with
    | error error =>
        simp only [answered]
        exact trivial
    | ok response =>
        simp only [answered]
        refine ⟨table, snapshot, ?_⟩
        rw [summaryOn, ← same, answered]
  · intro error after _
    exact trivial

theorem wp_userTransactions (query : TransactionsQuery) :
    (safety spare world).wp task (userTransactions world query)
      (fun outcome after =>
        match outcome with
        | .ok response =>
            Promised world after (.transactions query) (.ok (.page response))
        | .error _ => True)
      state := by
  let rowsOn (table : Table) : Table :=
    pageRows world.collation table query.userId (queryWindow world query)
      query.limit query.offset
  have listed : (safety spare world).wp task
      (listUserTransactions world query.userId (boundOrUtc query.start)
        (boundOrUtc query.stop) query.limit query.offset)
      (fun outcome after =>
        match outcome with
        | .ok answer => ∃ rowsTable countTable, Snapshot rowsTable after ∧
            Snapshot countTable after ∧
              answer = (rowsOn rowsTable,
                pageTotal countTable query.userId (queryWindow world query))
        | .error _ => True)
      state := by
    refine Discipline.wp_seq wp_select ?_ ?_
    · intro rowsTable after rows
      refine Discipline.wp_seq
        (wp_carry (Snapshot.lasting rowsTable) rows wp_select) ?_ ?_
      · intro countTable later reached
        exact ⟨rowsTable, countTable, reached.2, reached.1, rfl⟩
      · intro error later _
        exact trivial
    · intro error after _
      exact trivial
  refine Discipline.wp_seq listed ?_ ?_
  · intro answer after reached
    obtain ⟨rowsTable, countTable, rows, count, rfl⟩ := reached
    cases items : transactionOuts (rowsOn rowsTable) with
    | error error =>
        simp only [items]
        exact trivial
    | ok outs =>
        simp only [items]
        refine ⟨rowsTable, countTable, rows, count, ?_⟩
        simp only [rowsOn] at items
        rw [pageOn, items]
        rfl
  · intro error after _
    exact trivial

/-- A published event is in the stream under the id that is returned. -/
theorem wp_publish (event : TransactionEvent) :
    (safety spare world).wp task (publish world event)
      (fun outcome after =>
        match outcome with
        | .ok id =>
            after.entryFields id = some (publishedFields world.json event)
        | .error _ => True)
      state := by
  refine wp_paying (Lasting.const True).stable trivial ?_ ?_
  · intro before choice _ _ permitted
    exact ⟨permitted, trivial, trivial⟩
  · intro before choice reply after _ _ taken
    cases reply with
    | error error => exact trivial
    | ok id =>
        rcases exec_xadd taken with
          ⟨_, error, failed⟩ | ⟨stream, appended, reached, answered⟩
        · cases failed
        · have longer : stream.entries = before.redis.stream.entries ++
              [encodeFields (publishedFields world.json event)] := by
            rcases appended with ⟨_, rfl⟩ | ⟨_, _, _, _, rfl⟩
            · rfl
            · rfl
          rw [reached, answered id rfl]
          simp [State.entryFields, longer, decodeFields_publishedFields]

theorem wp_ingestEvent (body : EventBody) :
    (safety spare world).wp task
      (ingestEvent world (TransactionEventIn.validate world.unicode body))
      (fun outcome after =>
        match outcome with
        | .ok response =>
            Promised world after (.ingest body) (.ok (.accepted response))
        | .error _ => True)
      state := by
  have clock : (safety spare world).wp task App.utcNow (fun _ _ => True) state := by
    refine Discipline.wp_seq
      (wp_free trivial (Lasting.const True) trivial) ?_ ?_
    · intro wall after _
      exact trivial
    · intro error after _
      exact trivial
  refine Discipline.wp_seq clock ?_ ?_
  · intro receivedAt after _
    have published : (safety spare world).wp task
        ((publish world (acceptedEvent world body receivedAt)).tryExcept
          fun exc =>
            if exc.cls = .osError ∨ exc.cls.isRedisError = true then
              .raise {
                cls := .httpException 503
                text := "queue unavailable: " ++ exc.text }
            else .raise exc)
        (fun outcome later =>
          match outcome with
          | .ok id =>
              later.entryFields id =
                some (publishedFields world.json
                  (acceptedEvent world body receivedAt))
          | .error _ => True)
        after := by
      refine Discipline.wp_tryExcept (wp_publish _) ?_ ?_
      · intro id later entry
        exact entry
      · intro error later _
        split
        · exact trivial
        · exact trivial
    refine Discipline.wp_seq published ?_ ?_
    · intro id later entry
      have lasting : Lasting fun state =>
          state.entryFields id =
            some (publishedFields world.json
              (acceptedEvent world body receivedAt)) :=
        fun _ _ grows before => grows.entryFields before
      refine Discipline.wp_seq (wp_free trivial lasting entry) ?_ ?_
      · intro _ last kept
        exact ⟨rfl, receivedAt, kept⟩
      · intro error last _
        exact trivial
    · intro error later _
      exact trivial
  · intro error after _
    exact trivial

theorem wp_route (request : Request) :
    (safety spare world).wp task (route world request)
      (fun outcome after => Promised world after request outcome) state := by
  cases request with
  | ingest body =>
      refine Discipline.wp_seq (wp_ingestEvent body) ?_ ?_
      · intro response after promised
        exact promised
      · intro error after _
        exact trivial
  | summary userId =>
      refine Discipline.wp_seq (wp_getSummary userId) ?_ ?_
      · intro response after promised
        exact promised
      · intro error after _
        exact trivial
  | transactions query =>
      refine Discipline.wp_seq (wp_userTransactions query) ?_ ?_
      · intro response after promised
        exact promised
      · intro error after _
        exact trivial

theorem wp_serve (request : Request) :
    (safety spare world).wp task (serve world request) (fun _ _ => True) state := by
  have answered : (safety spare world).wp task
      ((route world request).tryExcept databaseUnavailableHandler)
      (fun outcome after => Promised world after request outcome) state := by
    refine Discipline.wp_tryExcept (wp_route request) ?_ ?_
    · intro response after promised
      exact promised
    · intro error after _
      unfold databaseUnavailableHandler
      split
      · exact promised_error world after request _
      · exact promised_error world after request _
  refine Discipline.wp_bind.mpr (Discipline.wp_attempt.mpr
    (Discipline.wp_mono ?_ answered))
  intro outcome after promised
  have lasting : Lasting fun state => Promised world state request outcome :=
    fun _ _ grows before => before.grow grows
  refine wp_paying lasting.stable promised ?_ ?_
  · intro before choice _ held _
    exact ⟨fun _ => trivial, trivial, held⟩
  · intro before choice reply later _ _ _
    exact trivial

end Requests

/-! ## The whole system -/

theorem wp_boot {spare : Prop} {world : World} {task : Tid} {state : State} :
    (safety spare world).wp task (bootWorker world) (fun _ _ => True)
      state := by
  refine wp_of_free ?_ (Lasting.const True) trivial
  refine (uses_bootWorker world).mono ?_
  intro command boots
  cases command with
  | probe => exact trivial
  | random => exact trivial
  | sleep delay => exact trivial
  | xgroupCreate => exact trivial
  | _ => cases boots

theorem Starts.wp {spare : Prop} {world : World} {task : Tid} {program : App Unit}
    {state : State} (starts : Starts world program) :
    (safety spare world).wp task program
      (Discipline.returns fun _ => True) state := by
  have right : (safety spare world).wp task program (fun _ _ => True) state := by
    cases starts with
    | serve request => exact wp_serve request
    | boot => exact wp_boot
    | consume => exact wp_consumeRound
    | reclaim => exact wp_reclaimRound
  refine Discipline.wp_mono ?_ right
  intro outcome after _
  cases outcome with
  | ok value => exact trivial
  | error error => exact trivial

/-- The safety invariant holds in every reachable state. -/
theorem reaches_safe {spare : Prop} {world : World} {config : AppConfig}
    (reaches : Reaches world (sparing spare world) config) :
    Safe spare world config.shared := by
  have good : (safety spare world).Good (fun _ _ => True) config := by
    refine Discipline.sound (fun _ _ _ _ _ _ => trivial) ?_ ?_ ?_ reaches
    · refine ⟨Safe.initial spare world, ?_⟩
      intro task program running
      cases running
    · intro finished state tasks _ _ _ _ task program running
      rcases next_cases running with same | follows
      · exact Or.inl same
      · exact Or.inr follows.starts.wp
    · intro event before tasks after tasksAfter _ safe _ happened
      refine ⟨happen_safe safe happened, ?_⟩
      intro task program running
      rcases happen_tasks happened running with ⟨same, spared⟩ | begins
      · exact Or.inl ⟨same, happen_others spared happened⟩
      · exact Or.inr begins.starts.wp
  exact good.1

/-- What does not depend on trimming holds in every state of every run. -/
theorem reaches_safe_of_any {world : World} {permit : AppPermit}
    {config : AppConfig} (reaches : Reaches world permit config) :
    Safe False world config.shared := by
  apply reaches_safe
  refine System.Reachable.mono ?_ (fun _ _ _ => trivial) reaches
  intro state task command choice _
  cases command with
  | xadd fields maxlen => exact fun impossible => impossible.elim
  | _ => exact trivial

end TxnEvents
