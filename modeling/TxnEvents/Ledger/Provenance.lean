import TxnEvents.Services.Processor
import TxnEvents.Delivery.Accounting

/-!
# Where a row comes from

Every row, committed or still open, was built from one delivered message and
one rate that the service answered for its currency.  Ids are unique among
them, and an insert that returns `True` uses up the only receipt of its id.
-/

namespace TxnEvents

open Effects Arith Python Streams

/-- One delivery and one looked-up rate. -/
structure Source where
  id : Nat
  fields : Dict
  event : TransactionEvent
  rate : Decimal
  amountUsd : Decimal
  processedAt : DateTime

namespace Source

def row (source : Source) : ProcessedTransaction :=
  processedRow source.event source.rate source.amountUsd source.processedAt

/-- The rate service has answered this rate for this currency. -/
def Answered (state : State) (currency : String) (rate : Decimal) : Prop :=
  ∃ task, .rateAnswered task currency rate ∈ state.history

structure Valid (world : World) (state : State) (source : Source) : Prop where
  entry : state.entryFields source.id = some source.fields
  delivered : ∃ task, .delivered task source.id ∈ state.history
  parsed : parseFields world.unicode world.json source.fields = .ok source.event
  answered : Answered state source.event.currency source.rate
  converted : convertToUsd source.event.amount source.rate = .ok source.amountUsd

theorem Answered.grow {before after : State} {currency : String}
    {rate : Decimal} (answered : Answered before currency rate)
    (grows : Grows before after) : Answered after currency rate := by
  obtain ⟨task, member⟩ := answered
  exact ⟨task, grows.history.subset member⟩

theorem Valid.grow {world : World} {before after : State} {source : Source}
    (valid : source.Valid world before) (grows : Grows before after) :
    source.Valid world after where
  entry := grows.entryFields valid.entry
  delivered := by
    obtain ⟨task, member⟩ := valid.delivered
    exact ⟨task, grows.delivered member⟩
  parsed := valid.parsed
  answered := valid.answered.grow grows
  converted := valid.converted

end Source

/-- The stored row is what the columns make of the row of the source. -/
def StoredFrom (world : World) (state : State) (source : Source)
    (stored : StoredTransaction) : Prop :=
  source.Valid world state ∧
    ∃ process, source.row.toColumns (world.localZone process) = .ok stored

theorem StoredFrom.grow {world : World} {before after : State}
    {source : Source} {stored : StoredTransaction}
    (from_ : StoredFrom world before source stored)
    (grows : Grows before after) : StoredFrom world after source stored :=
  ⟨from_.1.grow grows, from_.2⟩

def Sourced (world : World) (state : State) (stored : StoredTransaction) :
    Prop :=
  ∃ source, StoredFrom world state source stored

theorem Sourced.grow {world : World} {before after : State}
    {stored : StoredTransaction} (sourced : Sourced world before stored)
    (grows : Grows before after) : Sourced world after stored := by
  obtain ⟨source, from_⟩ := sourced
  exact ⟨source, from_.grow grows⟩

/-- The insert of a row with this id has returned `True`. -/
def Happening.isInsertOf (id : String) : Happening → Bool
  | noted _ (.insertReturned inserted true) => inserted = id
  | _ => false

/-- How often the insert of a row with this id has returned `True`. -/
def insertedReturns (history : History) (id : String) : Nat :=
  history.countP (Happening.isInsertOf id)

structure DbSafe (world : World) (state : State) : Prop where
  unique : (state.db.table.map StoredTransaction.id).Nodup
  openUnique : (state.db.uncommitted.map fun entry => entry.row.id).Nodup
  openFresh : ∀ entry ∈ state.db.uncommitted,
    entry.row.id ∉ state.db.table.map StoredTransaction.id
  sourced : ∀ row ∈ state.db.table, Sourced world state row
  openSourced : ∀ entry ∈ state.db.uncommitted, Sourced world state entry.row
  returns : ∀ id,
    insertedReturns state.history id +
        state.db.receipts.countP (fun receipt => receipt.id = id) ≤
      (state.db.table.map StoredTransaction.id).count id

/-- Cached rates are rates that the service has answered. -/
def CacheSafe (state : State) : Prop :=
  ∀ process currency rate expiresAt,
    (state.memory process).cache currency = some (rate, expiresAt) →
      Source.Answered state currency rate

/-- Filtering out a member of a kind leaves fewer of the kind. -/
private theorem countP_filter_lt {α : Type} {items : List α} {item : α}
    {kind keep : α → Bool} (member : item ∈ items) (ofKind : kind item = true)
    (dropped : keep item = false) :
    (items.filter keep).countP kind < items.countP kind := by
  have split := List.countP_eq_countP_filter_add items kind keep
  have positive : 0 < (items.filter fun other => !keep other).countP kind :=
    List.countP_pos_iff.mpr
      ⟨item, List.mem_filter.mpr ⟨member, by simp [dropped]⟩, ofKind⟩
  omega

namespace DbSafe

variable {world : World} {before after : State}

theorem initial : DbSafe world State.initial where
  unique := List.nodup_nil
  openUnique := List.nodup_nil
  openFresh := by
    intro entry member
    cases member
  sourced := by
    intro row member
    cases member
  openSourced := by
    intro entry member
    cases member
  returns := by
    intro id
    exact Nat.le_refl 0

/-- A step that leaves the table alone, drops open rows or receipts, and
records no insert. -/
theorem of_sublist (safe : DbSafe world before) (grows : Grows before after)
    (table : after.db.table = before.db.table)
    (uncommitted : after.db.uncommitted.Sublist before.db.uncommitted)
    (receipts : after.db.receipts.Sublist before.db.receipts)
    (returns : ∀ id,
      insertedReturns after.history id = insertedReturns before.history id) :
    DbSafe world after where
  unique := by
    rw [table]
    exact safe.unique
  openUnique := safe.openUnique.sublist (uncommitted.map _)
  openFresh := by
    intro entry member
    rw [table]
    exact safe.openFresh entry (uncommitted.subset member)
  sourced := by
    intro row member
    rw [table] at member
    exact (safe.sourced row member).grow grows
  openSourced := by
    intro entry member
    exact (safe.openSourced entry (uncommitted.subset member)).grow grows
  returns := by
    intro id
    rw [table, returns id]
    have fewer : after.db.receipts.countP (fun receipt => receipt.id = id) ≤
        before.db.receipts.countP fun receipt => receipt.id = id :=
      receipts.countP_le
    have bound := safe.returns id
    omega

theorem rollback {state : State} (safe : DbSafe world state) (task : Tid) :
    DbSafe world (state.rollback task) :=
  safe.of_sublist (Grows.rollback state task) rfl List.filter_sublist
    (List.Sublist.refl _) fun _ => rfl

theorem inserted {state : State} {task : Tid} {stored : StoredTransaction}
    (safe : DbSafe world state)
    (absent : stored.id ∉ state.db.table.map StoredTransaction.id)
    (free : ∀ other ∈ state.db.uncommitted,
      other.task ≠ task → other.row.id ≠ stored.id)
    (sourced : Sourced world state stored) :
    DbSafe world
      { state with
        db.uncommitted :=
          ⟨task, stored⟩ :: (state.rollback task).db.uncommitted } := by
  have rolledBack := safe.rollback task
  have grows : Grows state
      { state with
        db.uncommitted :=
          ⟨task, stored⟩ :: (state.rollback task).db.uncommitted } :=
    Grows.of_redis_eq rfl (List.prefix_refl _) (List.suffix_refl _)
  exact {
    unique := safe.unique
    openUnique := by
      rw [List.map_cons, List.nodup_cons]
      refine ⟨?_, rolledBack.openUnique⟩
      intro member
      obtain ⟨other, otherMember, same⟩ := List.mem_map.mp member
      obtain ⟨present, elsewhere⟩ := List.mem_filter.mp otherMember
      exact free other present (by simpa using elsewhere) same
    openFresh := by
      intro entry member
      rcases List.mem_cons.mp member with rfl | older
      · exact absent
      · exact rolledBack.openFresh entry older
    sourced := fun row member => (safe.sourced row member).grow grows
    openSourced := by
      intro entry member
      rcases List.mem_cons.mp member with rfl | older
      · exact sourced.grow grows
      · exact (safe.openSourced entry (List.mem_of_mem_filter older)).grow grows
    returns := safe.returns }

/-- An open row becomes permanent; `receipts` are the receipts it leaves. -/
theorem committed {state : State} {task : Tid} {entry : Uncommitted}
    {receipts : List Receipt} (safe : DbSafe world state)
    (found : state.openRow task = some entry)
    (counted : ∀ id,
      receipts.countP (fun receipt => receipt.id = id) ≤
        state.db.receipts.countP (fun receipt => receipt.id = id) +
          if entry.row.id = id then 1 else 0) :
    DbSafe world
      { state.rollback task with
        db.table := state.db.table ++ [entry.row]
        db.receipts := receipts } := by
  have member : entry ∈ state.db.uncommitted := List.mem_of_find?_eq_some found
  have mine : entry.task = task := by simpa using List.find?_some found
  have fresh := safe.openFresh entry member
  have rolledBack := safe.rollback task
  have grows : Grows state
      { state.rollback task with
        db.table := state.db.table ++ [entry.row]
        db.receipts := receipts } :=
    Grows.of_redis_eq rfl (List.prefix_append _ _) (List.suffix_refl _)
  exact {
    unique := by
      rw [List.map_append, List.map_singleton, List.nodup_append]
      refine ⟨safe.unique, List.nodup_singleton _, ?_⟩
      intro id older newest newestMember same
      rw [List.mem_singleton.mp newestMember] at same
      rw [same] at older
      exact fresh older
    openUnique := rolledBack.openUnique
    openFresh := by
      intro other otherMember
      obtain ⟨present, elsewhere⟩ := List.mem_filter.mp otherMember
      have different : other ≠ entry := by
        intro same
        rw [same, mine] at elsewhere
        simp at elsewhere
      rw [List.map_append, List.map_singleton, List.mem_append,
        List.mem_singleton, not_or]
      refine ⟨safe.openFresh other present, ?_⟩
      intro same
      exact different
        (List.inj_on_of_nodup_map safe.openUnique present member same)
    sourced := by
      intro row rowMember
      rcases List.mem_append.mp rowMember with older | newest
      · exact (safe.sourced row older).grow grows
      · rw [List.mem_singleton.mp newest]
        exact (safe.openSourced entry member).grow grows
    openSourced := by
      intro other otherMember
      exact (safe.openSourced other (List.mem_of_mem_filter otherMember)).grow
        grows
    returns := by
      intro id
      have bound := safe.returns id
      have fewer := counted id
      rw [List.map_append, List.map_singleton, List.count_append,
        List.count_singleton]
      simp only [State.rollback, beq_iff_eq]
      omega }

/-- The return of an insert uses up its receipt. -/
theorem observed {state : State} {task : Tid} {id : String}
    {inserted : Bool} (safe : DbSafe world state)
    (receipt : inserted = true → ⟨task, id⟩ ∈ state.db.receipts) :
    DbSafe world (observe state task (.insertReturned id inserted)) := by
  have dropped : (state.dropReceipts task).db.receipts.Sublist
      state.db.receipts := List.filter_sublist
  have grows := grows_observe state task (.insertReturned id inserted)
  have forgotten : Grows state (state.dropReceipts task) :=
    Grows.of_redis_eq rfl (List.prefix_refl _) (List.suffix_refl _)
  have sound : DbSafe world (state.dropReceipts task) :=
    safe.of_sublist forgotten rfl (List.Sublist.refl _) dropped fun _ => rfl
  exact {
    unique := safe.unique
    openUnique := safe.openUnique
    openFresh := safe.openFresh
    sourced := fun row member => (safe.sourced row member).grow grows
    openSourced := fun entry member =>
      (safe.openSourced entry member).grow grows
    returns := by
      intro other
      have bound := safe.returns other
      have kept := sound.returns other
      by_cases counts :
          (Happening.noted task (.insertReturned id inserted)).isInsertOf
            other = true
      · cases inserted with
        | false => cases counts
        | true =>
            have same : id = other := by
              simpa [Happening.isInsertOf] using counts
            have used : (state.dropReceipts task).db.receipts.countP
                  (fun receipt => receipt.id = other) <
                state.db.receipts.countP fun receipt => receipt.id = other :=
              countP_filter_lt (receipt rfl) (by simpa using same) (by simp)
            have once : insertedReturns
                (observe state task (.insertReturned id true)).history other =
                  insertedReturns state.history other + 1 :=
              List.countP_cons_of_pos counts
            rw [once]
            change _ + 1 + (state.dropReceipts task).db.receipts.countP _ ≤
              (state.db.table.map StoredTransaction.id).count other
            omega
      · simp only [observe, State.record, insertedReturns,
          List.countP_cons_of_neg counts]
        exact kept }

end DbSafe

/-- Counting notes that the step does not write. -/
theorem countP_history_eq {world : World} {state after : State} {task : Tid}
    {command : Command} {choice : Choice}
    {reply : Except PyException command.Reply} {kind : Happening → Bool}
    (delivered : ∀ id, kind (.delivered task id) = false)
    (answered : ∀ currency rate,
      kind (.rateAnswered task currency rate) = false)
    (noted : ∀ note, command = .observe note →
      kind (.noted task note) = false)
    (taken : exec world state task command choice = some (reply, after)) :
    after.history.countP kind = state.history.countP kind := by
  obtain ⟨newer, equality, recorded⟩ := exec_recorded taken
  have none : newer.countP kind = 0 := by
    rw [List.countP_eq_zero]
    intro happening member
    cases recorded happening member with
    | delivered _ id => simp [delivered]
    | rateAnswered currency _ => simp [answered]
    | noted note => simp [noted note rfl]
  rw [equality, List.countP_append, none, Nat.zero_add]

/-- What the step of a task owes to the table. -/
def OwesRow (world : World) (state : State) (task : Tid) : Command → Prop
  | .execute row => ∃ source : Source, source.Valid world state ∧ row = source.row
  | .observe (.insertReturned id true) => ⟨task, id⟩ ∈ state.db.receipts
  | .cacheSet currency rate _ => Source.Answered state currency rate
  | _ => True

theorem exec_dbSafe {world : World} {state after : State} {task : Tid}
    {command : Command} {choice : Choice}
    {reply : Except PyException command.Reply}
    (safe : DbSafe world state) (owes : OwesRow world state task command)
    (taken : exec world state task command choice = some (reply, after)) :
    DbSafe world after := by
  have grows := exec_grows taken
  have unrecorded : (∀ note, command = .observe note →
      ∀ id, (Happening.noted task note).isInsertOf id = false) →
        ∀ id, insertedReturns after.history id =
          insertedReturns state.history id := by
    intro quiet id
    exact countP_history_eq (fun _ => rfl) (fun _ _ => rfl)
      (fun note observed => quiet note observed id) taken
  by_cases db : command.isDb = false
  · have same := db_of_not_isDb db taken
    refine safe.of_sublist grows (by rw [same]) (by rw [same]) (by rw [same])
      (unrecorded ?_)
    rintro note rfl
    cases db
  · cases command with
    | execute row =>
        rcases exec_execute taken with
          ⟨_, stored, accepted, absent, free, reached⟩ |
            ⟨_, _, _, _, reached⟩ | ⟨_, reached⟩
        · rw [reached]
          obtain ⟨source, valid, rfl⟩ := owes
          exact safe.inserted absent free
            ⟨source, valid, task.process, accepted⟩
        · rw [reached]
          exact safe.rollback task
        · rw [reached]
          exact safe.rollback task
    | commit =>
        cases found : state.openRow task with
        | none =>
            rcases exec_commit taken with
              ⟨_, reached⟩ | ⟨_, reached | reached⟩
            · rw [reached, acknowledged_of_no_openRow found]
              exact safe
            · rw [reached]
              exact safe.rollback task
            · rw [reached, committed_of_no_openRow found]
              exact safe
        | some entry =>
            rcases exec_commit taken with
              ⟨_, reached⟩ | ⟨_, reached | reached⟩
            · rw [reached, acknowledged_of_openRow found]
              refine safe.committed found ?_
              intro id
              rw [List.countP_cons]
              simp
            · rw [reached]
              exact safe.rollback task
            · rw [reached, committed_of_openRow found]
              refine safe.committed found ?_
              intro id
              exact Nat.le_add_right _ _
    | observe note =>
        by_cases returned :
            ∃ id inserted, note = .insertReturned id inserted
        · obtain ⟨id, inserted, rfl⟩ := returned
          cases taken
          refine safe.observed ?_
          rintro rfl
          exact owes
        · have quiet : ∀ id, (Happening.noted task note).isInsertOf id =
              false := by
            intro id
            cases note with
            | insertReturned id inserted =>
                exact absurd ⟨id, inserted, rfl⟩ returned
            | _ => rfl
          have same : after.db = state.db := by
            cases taken
            cases note with
            | insertReturned id inserted =>
                exact absurd ⟨id, inserted, rfl⟩ returned
            | _ => rfl
          refine safe.of_sublist grows (by rw [same]) (by rw [same])
            (by rw [same]) (unrecorded ?_)
          rintro other equality
          cases equality
          exact quiet
    | _ => exact absurd rfl db

theorem happen_dbSafe {world : World} {event : Event} {state after : State}
    {tasks tasksAfter : AppTasks} (safe : DbSafe world state)
    (happened :
      happen world event state tasks = some (after, tasksAfter)) :
    DbSafe world after := by
  have grows := happen_grows happened
  have unchanged : after.db = state.db → after.history = state.history →
      DbSafe world after := by
    intro db history
    exact safe.of_sublist grows (by rw [db]) (by rw [db]) (by rw [db])
      fun id => by rw [history]
  cases event with
  | ask number request =>
      simp only [happen] at happened
      split at happened
      · cases happened
        exact safe
      · cases happened
  | hangUp number =>
      cases happened
      exact safe
  | startWorker name =>
      simp only [happen] at happened
      split at happened
      · cases happened
        exact unchanged rfl rfl
      · cases happened
  | kill name =>
      cases happened
      exact safe.of_sublist grows rfl List.filter_sublist List.filter_sublist
        fun id => List.countP_cons_of_neg (by simp [Happening.isInsertOf])
  | tick milliseconds =>
      cases happened
      exact unchanged rfl rfl
  | inject fields =>
      cases happened
      exact unchanged rfl rfl

theorem CacheSafe.grow {before after : State} (safe : CacheSafe before)
    (grows : Grows before after)
    (caches : ∀ process currency entry,
      (after.memory process).cache currency = some entry →
        (before.memory process).cache currency = some entry) :
    CacheSafe after := by
  intro process currency rate expiresAt entry
  exact (safe process currency rate expiresAt
    (caches process currency _ entry)).grow grows

/-- Giving a process new memory with no new cache entry. -/
private theorem cache_setLocal {state : State} {written process : Process}
    {memory : LocalState} {currency : String} {entry : Decimal × ℚ}
    (fewer : ∀ currency entry, memory.cache currency = some entry →
      (state.memory written).cache currency = some entry)
    (found : ((state.setLocal written memory).memory process).cache currency =
      some entry) :
    (state.memory process).cache currency = some entry := by
  by_cases same : process = written
  · subst same
    simp only [State.setLocal, Function.update_self] at found
    exact fewer currency entry found
  · simpa only [State.setLocal, Function.update_of_ne same] using found

theorem exec_cacheSafe {world : World} {state after : State} {task : Tid}
    {command : Command} {choice : Choice}
    {reply : Except PyException command.Reply}
    (safe : CacheSafe state) (owes : OwesRow world state task command)
    (taken : exec world state task command choice = some (reply, after)) :
    CacheSafe after := by
  have grows := exec_grows taken
  by_cases local_ : command.isLocal = false
  · refine safe.grow grows ?_
    intro process currency entry found
    rwa [memory_of_not_isLocal local_ taken] at found
  · cases command with
    | cacheSet currency rate expiresAt =>
        cases taken
        intro process other cachedRate cachedUntil found
        by_cases written : process = task.process ∧ other = currency
        · obtain ⟨rfl, rfl⟩ := written
          simp only [cacheSet, State.setLocal, Function.update_self,
            Option.some.injEq, Prod.mk.injEq] at found
          obtain ⟨rfl, rfl⟩ := found
          exact Source.Answered.grow owes grows
        · have older :
              (state.memory process).cache other =
                some (cachedRate, cachedUntil) := by
            by_cases same : process = task.process
            · subst same
              have different : other ≠ currency := fun equal =>
                written ⟨rfl, equal⟩
              simpa only [cacheSet, State.setLocal, Function.update_self,
                Function.update_of_ne different] using found
            · simpa only [cacheSet, State.setLocal,
                Function.update_of_ne same] using found
          exact (safe process other cachedRate cachedUntil older).grow grows
    | monotonic =>
        simp only [exec, monotonic] at taken
        split at taken
        · cases taken
        · cases taken
          refine safe.grow grows ?_
          intro process currency entry
          exact cache_setLocal fun _ _ found => found
    | inc counter =>
        cases taken
        refine safe.grow grows ?_
        intro process currency entry
        exact cache_setLocal fun _ _ found => found
    | _ => exact absurd rfl local_

theorem happen_cacheSafe {world : World} {event : Event}
    {state after : State} {tasks tasksAfter : AppTasks}
    (safe : CacheSafe state)
    (happened :
      happen world event state tasks = some (after, tasksAfter)) :
    CacheSafe after := by
  refine safe.grow (happen_grows happened) ?_
  intro process currency entry found
  cases event with
  | ask number request =>
      simp only [happen] at happened
      split at happened
      · cases happened
        exact found
      · cases happened
  | hangUp number =>
      cases happened
      exact found
  | startWorker name =>
      simp only [happen] at happened
      split at happened
      · cases happened
        refine cache_setLocal ?_ found
        intro currency entry none
        cases none
      · cases happened
  | kill name =>
      cases happened
      exact found
  | tick milliseconds =>
      cases happened
      exact found
  | inject fields =>
      cases happened
      exact found

end TxnEvents
