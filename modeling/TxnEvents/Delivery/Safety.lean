import TxnEvents.Ledger.Provenance
import TxnEvents.System.Rules

/-!
# The safety discipline

One invariant for everything a run may never break: the counts, the accounting
of messages, the provenance of rows, what a 202 promises, and what is in the
dead-letter stream.  `Owes` is what a command owes to the invariant, and the
discipline holds for all runs in which trimming spares unfinished entries.
-/

namespace TxnEvents

open Effects Arith Python Streams App

/-! ## What a 202 promises -/

/-- The event that a body becomes when it is accepted. -/
def acceptedEvent (world : World) (body : EventBody) (receivedAt : DateTime) :
    TransactionEvent :=
  TransactionEvent.validate world.unicode
    ⟨(TransactionEventIn.validate world.unicode body).modelDump, receivedAt⟩

/-- Validating an accepted event once more changes nothing. -/
theorem validate_raw_acceptedEvent (world : World) (body : EventBody)
    (receivedAt : DateTime) :
    TransactionEvent.validate world.unicode
        (acceptedEvent world body receivedAt).raw =
      acceptedEvent world body receivedAt := by
  simp only [acceptedEvent, TransactionEvent.validate, TransactionEvent.raw,
    TransactionEventIn.validate_modelDump_validate]

theorem acceptedEvent_id (world : World) (body : EventBody)
    (receivedAt : DateTime) :
    (acceptedEvent world body receivedAt).id = body.id := by
  simp only [acceptedEvent, TransactionEvent.validate,
    TransactionEventIn.validate, TransactionEventIn.modelDump]

/-- A published event that parses comes back as it was accepted. -/
theorem eq_acceptedEvent_of_parseFields {world : World} {body : EventBody}
    {receivedAt : DateTime} {event : TransactionEvent}
    (parsed : parseFields world.unicode world.json
      (publishedFields world.json (acceptedEvent world body receivedAt)) =
        .ok event) :
    event = acceptedEvent world body receivedAt := by
  rw [eq_validate_of_parseFields_publishedFields parsed,
    validate_raw_acceptedEvent]

/-- A table the run has gone through, since tables only grow. -/
def Snapshot (table : Table) (state : State) : Prop :=
  table <+: state.db.table

/-- The answer to `GET /users/{user_id}/summary` on a table. -/
def summaryOn (table : Table) (userId : String) :
    Except PyException UserSummary :=
  summaryResponse userId (summaryOf table userId).1 (summaryOf table userId).2

/-- The moments between which a query asks for transactions. -/
def queryWindow (world : World) (query : TransactionsQuery) : Window where
  start := (boundOrUtc query.start).map (driverInstant (world.localZone .api))
  stop := (boundOrUtc query.stop).map (driverInstant (world.localZone .api))

/-- The answer to `GET /users/{user_id}/transactions`, the rows taken from one
table and their number from another. -/
def pageOn (world : World) (query : TransactionsQuery)
    (rowsTable countTable : Table) : Except PyException TransactionPage := do
  let items ← transactionOuts
    (pageRows world.collation rowsTable query.userId (queryWindow world query)
      query.limit query.offset)
  return {
    items
    total := pageTotal countTable query.userId (queryWindow world query)
    limit := query.limit
    offset := query.offset }

/-- A 202 names the event and the stream entry that carries it; a summary and
a page are those of tables the run has gone through. -/
def Promised (world : World) (state : State) :
    Request → Except PyException Response → Prop
  | .ingest body, .ok (.accepted response) =>
      response.eventId = body.id ∧ ∃ receivedAt,
        state.entryFields response.streamId =
          some (publishedFields world.json (acceptedEvent world body receivedAt))
  | .summary userId, .ok (.summary response) =>
      ∃ table, Snapshot table state ∧ summaryOn table userId = .ok response
  | .transactions query, .ok (.page response) =>
      ∃ rowsTable countTable, Snapshot rowsTable state ∧
        Snapshot countTable state ∧
          pageOn world query rowsTable countTable = .ok response
  | _, _ => True

theorem Snapshot.grow {table : Table} {before after : State}
    (snapshot : Snapshot table before) (grows : Grows before after) :
    Snapshot table after :=
  snapshot.trans grows.table

theorem Promised.grow {world : World} {before after : State}
    {request : Request} {response : Except PyException Response}
    (promised : Promised world before request response)
    (grows : Grows before after) : Promised world after request response := by
  unfold Promised at promised ⊢
  split at promised
  case h_1 body response =>
    obtain ⟨named, receivedAt, entry⟩ := promised
    exact ⟨named, receivedAt, grows.entryFields entry⟩
  case h_2 userId response =>
    obtain ⟨table, snapshot, answer⟩ := promised
    exact ⟨table, snapshot.grow grows, answer⟩
  case h_3 query response =>
    obtain ⟨rowsTable, countTable, rows, count, answer⟩ := promised
    exact ⟨rowsTable, countTable, rows.grow grows, count.grow grows, answer⟩
  case h_4 => exact trivial

/-! ## What is in the dead-letter stream -/

def exhaustedReason : String := "max deliveries exceeded"

/-- A permanent error does not claim that the deliveries are used up. -/
def Honest (error : PyException) : Prop :=
  error.cls.isPermanent = true → error.text ≠ exhaustedReason

/-- The message has used up its deliveries, and one of them ended in a
transient error. -/
def Exhausted (world : World) (state : State) (id : Nat) : Prop :=
  world.settings.maxDeliveries ≤ deliveries state.history id ∧
    ∃ task error, .noted task (.processEnded id (.error error)) ∈ state.history ∧
      error.cls.isTransient = true

/-- A dead letter is a stream entry with a reason, and is called exhausted
only when it is. -/
def Lettered (world : World) (state : State) (origin : Nat) (fields : Dict) :
    Prop :=
  ∃ original reason, state.entryFields origin = some original ∧
    fields = original.set "reason" reason ∧
      (reason = exhaustedReason → Exhausted world state origin)

theorem Exhausted.grow {world : World} {before after : State} {id : Nat}
    (exhausted : Exhausted world before id) (grows : Grows before after) :
    Exhausted world after id := by
  obtain ⟨enough, task, error, ended, transient⟩ := exhausted
  refine ⟨Nat.le_trans enough (grows.deliveries_le id), task, error, ?_,
    transient⟩
  exact grows.history.subset ended

theorem Lettered.grow {world : World} {before after : State} {origin : Nat}
    {fields : Dict} (lettered : Lettered world before origin fields)
    (grows : Grows before after) : Lettered world after origin fields := by
  obtain ⟨original, reason, entry, same, exhausted⟩ := lettered
  exact ⟨original, reason, grows.entryFields entry, same,
    fun equal => (exhausted equal).grow grows⟩

/-! ## The invariant -/

/-- `spare` says whether the run is one in which trimming spares unfinished
entries; everything else holds in all runs. -/
structure Safe (spare : Prop) (world : World) (state : State) : Prop where
  counted : Counted state
  kept : spare → Kept world state
  db : DbSafe world state
  cache : CacheSafe state
  promises : ∀ task request response,
    .noted task (.answered request response) ∈ state.history →
      Promised world state request response
  letters : ∀ letter ∈ state.redis.deadLetters,
    Lettered world state letter.origin letter.fields
  honest : ∀ task id error,
    .noted task (.processEnded id (.error error)) ∈ state.history →
      Honest error

theorem Safe.initial (spare : Prop) (world : World) :
    Safe spare world State.initial where
  counted := Counted.initial
  kept := fun _ => Kept.initial
  db := DbSafe.initial
  cache := by
    intro process currency rate expiresAt found
    cases found
  promises := by
    intro task request response member
    cases member
  letters := by
    intro letter member
    cases member
  honest := by
    intro task id error member
    cases member

/-- What the step of a task owes to the records of the run. -/
def OwesRecord (world : World) (state : State) : Command → Prop
  | .xaddDlq origin fields => Lettered world state origin fields
  | .observe (.answered request response) =>
      Promised world state request response
  | .observe (.processEnded _ (.error error)) => Honest error
  | _ => True

structure Owes (spare : Prop) (world : World) (state : State)
    (task : Tid) (command : Command) : Prop where
  account : spare → OwesAccount world state command
  row : OwesRow world state task command
  record : OwesRecord world state command

/-- A note in the history is an old one or the one of this step. -/
theorem noted_cases {world : World} {state after : State} {task : Tid}
    {command : Command} {choice : Choice}
    {reply : Except PyException command.Reply}
    (taken : exec world state task command choice = some (reply, after))
    {actor : Tid} {note : Note}
    (member : .noted actor note ∈ after.history) :
    .noted actor note ∈ state.history ∨
      actor = task ∧ command = .observe note := by
  obtain ⟨newer, equality, recorded⟩ := exec_recorded taken
  rw [equality] at member
  rcases List.mem_append.mp member with new | old
  · cases recorded _ new
    exact Or.inr ⟨rfl, rfl⟩
  · exact Or.inl old

theorem exec_promises {world : World} {state after : State} {task : Tid}
    {command : Command} {choice : Choice}
    {reply : Except PyException command.Reply}
    (promises : ∀ actor request response,
      .noted actor (.answered request response) ∈ state.history →
        Promised world state request response)
    (owes : OwesRecord world state command)
    (taken : exec world state task command choice = some (reply, after)) :
    ∀ actor request response,
      .noted actor (.answered request response) ∈ after.history →
        Promised world after request response := by
  intro actor request response member
  have grows := exec_grows taken
  rcases noted_cases taken member with old | ⟨_, rfl⟩
  · exact (promises actor request response old).grow grows
  · exact Promised.grow owes grows

theorem exec_honest {world : World} {state after : State} {task : Tid}
    {command : Command} {choice : Choice}
    {reply : Except PyException command.Reply}
    (honest : ∀ actor id error,
      .noted actor (.processEnded id (.error error)) ∈ state.history →
        Honest error)
    (owes : OwesRecord world state command)
    (taken : exec world state task command choice = some (reply, after)) :
    ∀ actor id error,
      .noted actor (.processEnded id (.error error)) ∈ after.history →
        Honest error := by
  intro actor id error member
  rcases noted_cases taken member with old | ⟨_, rfl⟩
  · exact honest actor id error old
  · exact owes

theorem exec_letters {spare : Prop} {world : World} {state after : State} {task : Tid}
    {command : Command} {choice : Choice}
    {reply : Except PyException command.Reply} (safe : Safe spare world state)
    (owes : OwesRecord world state command)
    (taken : exec world state task command choice = some (reply, after)) :
    ∀ letter ∈ after.redis.deadLetters,
      Lettered world after letter.origin letter.fields := by
  intro letter member
  have grows := exec_grows taken
  have older : letter ∈ state.redis.deadLetters →
      Lettered world after letter.origin letter.fields :=
    fun old => (safe.letters letter old).grow grows
  by_cases added : ∃ origin fields, command = .xaddDlq origin fields
  · obtain ⟨origin, fields, rfl⟩ := added
    rcases settle_state taken with same | reached
    · rw [same] at member
      exact older member
    · have appended : after.redis.deadLetters =
          state.redis.deadLetters ++ [⟨origin, fields⟩] := by
        rw [reached, Redis.xaddDlq]
      rw [appended, List.mem_append, List.mem_singleton] at member
      rcases member with old | rfl
      · exact older old
      · exact Lettered.grow owes grows
  · apply older
    have same := deadLetters_of_not_xaddDlq added taken
    rwa [same] at member

theorem exec_safe {spare : Prop} {world : World} {state after : State} {task : Tid}
    {command : Command} {choice : Choice}
    {reply : Except PyException command.Reply}
    (safe : Safe spare world state) (owes : Owes spare world state task command)
    (taken : exec world state task command choice = some (reply, after)) :
    Safe spare world after where
  counted := exec_counted safe.counted taken
  kept := fun spared =>
    exec_kept (safe.kept spared) safe.counted (owes.account spared) taken
  db := exec_dbSafe safe.db owes.row taken
  cache := exec_cacheSafe safe.cache owes.row taken
  promises := exec_promises safe.promises owes.record taken
  letters := exec_letters safe owes.record taken
  honest := exec_honest safe.honest owes.record taken

theorem happen_safe {spare : Prop} {world : World} {event : Event} {state after : State}
    {tasks tasksAfter : AppTasks} (safe : Safe spare world state)
    (happened :
      happen world event state tasks = some (after, tasksAfter)) :
    Safe spare world after where
  counted := happen_counted safe.counted happened
  kept := fun spared => happen_kept (safe.kept spared) happened
  db := happen_dbSafe safe.db happened
  cache := happen_cacheSafe safe.cache happened
  promises := by
    intro task request response member
    refine Promised.grow ?_ (happen_grows happened)
    apply safe.promises task request response
    exact mem_of_happen happened rfl member
  letters := by
    intro letter member
    refine Lettered.grow ?_ (happen_grows happened)
    rw [happen_deadLetters happened] at member
    exact safe.letters letter member
  honest := by
    intro task id error member
    apply safe.honest task id error
    exact mem_of_happen happened rfl member

/-! ## The discipline -/

/-- Runs in which no publish can trim an entry the group is not done with. -/
def sparing (spare : Prop) (world : World) : AppPermit where
  command := fun state _ command _ =>
    match command with
    | .xadd _ _ =>
        spare → ∀ limit, world.settings.streamMaxlen = some limit →
          SafeToTrim state limit
    | _ => True
  env := fun _ _ => True

def safety (spare : Prop) (world : World) : Discipline (system world) where
  permit := sparing spare world
  inv := Safe spare world
  owes := Owes spare world
  rely := Others
  rely_refl := Others.refl
  rely_trans := fun _ _ _ _ => Others.trans

/-! ## The safety discipline at work -/

/-- An assertion that no run ever takes back. -/
def Lasting (holds : State → Prop) : Prop :=
  ∀ before after, Grows before after → holds before → holds after

theorem Lasting.and {left right : State → Prop} (leftLasts : Lasting left)
    (rightLasts : Lasting right) :
    Lasting fun state => left state ∧ right state := by
  intro before after grows held
  exact ⟨leftLasts before after grows held.1,
    rightLasts before after grows held.2⟩

theorem Lasting.const (fact : Prop) : Lasting fun _ => fact :=
  fun _ _ _ held => held

section Growing

variable {world : World} {discipline : Discipline (system world)} {task : Tid}
  {holds : State → Prop}

/-- What lasts is stable wherever the other tasks only make the state grow. -/
theorem Lasting.stable_of_grows (lasting : Lasting holds)
    (grows : ∀ before after, discipline.rely task before after →
      Grows before after) :
    discipline.Stable task holds :=
  fun before after moved _ held =>
    lasting before after (grows before after moved) held

/-- What lasts is carried through any program. -/
theorem Lasting.carried {α : Type} {body : App α} {state : State}
    {post : Except PyException α → State → Prop} (lasting : Lasting holds)
    (grows : ∀ before after, discipline.rely task before after →
      Grows before after)
    (current : holds state) (right : discipline.wp task body post state) :
    discipline.wp task body
      (fun outcome after => post outcome after ∧ holds after) state :=
  Discipline.wp_frame (lasting.stable_of_grows grows)
    (fun _ before _ _ after held taken =>
      lasting before after (exec_grows taken) held) current right

end Growing

/-- The commands that owe nothing. -/
def Command.Free : Command → Prop
  | xadd _ _ => False
  | xack _ => False
  | xaddDlq _ _ => False
  | execute _ => False
  | cacheSet _ _ _ => False
  | observe (.insertReturned _ _) => False
  | observe (.answered _ _) => False
  | observe (.processEnded _ _) => False
  | _ => True

theorem owes_of_free {spare : Prop} {world : World} {state : State} {task : Tid}
    {command : Command} (free : command.Free) :
    Owes spare world state task command where
  account := by
    intro _
    cases command with
    | xadd fields maxlen => cases free
    | xack msgId => cases free
    | _ => exact trivial
  row := by
    cases command with
    | execute row => cases free
    | cacheSet currency rate expiresAt => cases free
    | observe note =>
        cases note with
        | insertReturned id inserted => cases free
        | _ => exact trivial
    | _ => exact trivial
  record := by
    cases command with
    | xaddDlq origin fields => cases free
    | observe note =>
        cases note with
        | answered request response => cases free
        | processEnded id ended => cases free
        | _ => exact trivial
    | _ => exact trivial

section Safety

variable {spare : Prop} {world : World} {task : Tid} {holds : State → Prop}

theorem Lasting.stable (lasting : Lasting holds) :
    (safety spare world).Stable task holds :=
  lasting.stable_of_grows fun _ _ others => others.toGrows

theorem safety_guarantee {before after : State} {command : Command}
    {choice : Choice} {reply : Except PyException command.Reply}
    (safe : Safe spare world before) (owes : Owes spare world before task command)
    (taken : exec world before task command choice = some (reply, after)) :
    (safety spare world).Guarantee task command before after :=
  ⟨owes, exec_safe safe owes taken,
    fun _ different => exec_others different taken⟩

/-- A command that pays what it owes. -/
theorem wp_paying {command : Command}
    {post : Except PyException command.Reply → State → Prop} {state : State}
    (stable : (safety spare world).Stable task holds) (current : holds state)
    (owes : ∀ before choice, Safe spare world before → holds before →
      (sparing spare world).command before task command choice →
        Owes spare world before task command)
    (effect : ∀ before choice reply after, Safe spare world before → holds before →
      exec world before task command choice = some (reply, after) →
        post reply after) :
    (safety spare world).wp task (ask command) post state := by
  refine wp_ask stable current ?_
  intro before choice reply after safe held permitted taken
  have paid := owes before choice safe held permitted
  exact ⟨safety_guarantee safe paid taken,
    effect before choice reply after safe held taken⟩

/-- A command that owes nothing does what its effect says. -/
theorem wp_effect {command : Command}
    {post : Except PyException command.Reply → State → Prop} {state : State}
    (free : command.Free)
    (effect : ∀ before choice reply after, Safe spare world before →
      exec world before task command choice = some (reply, after) →
        post reply after) :
    (safety spare world).wp task (ask command) post state := by
  refine wp_paying (Lasting.const True).stable trivial ?_ ?_
  · intro before choice _ _ _
    exact owes_of_free free
  · intro before choice reply after safe _ taken
    exact effect before choice reply after safe taken

/-- A command that owes nothing keeps a lasting assertion. -/
theorem wp_free {command : Command} {state : State} (free : command.Free)
    (lasting : Lasting holds) (current : holds state) :
    (safety spare world).wp task (ask command) (Calm holds) state := by
  refine wp_ask_calm lasting.stable current ?_
  intro before choice reply after safe held _ taken
  exact ⟨safety_guarantee safe (owes_of_free free) taken,
    lasting before after (exec_grows taken) held⟩

theorem safety_mayPause (lasting : Lasting holds) :
    MayPause (safety spare world) task holds := by
  intro command pausing before choice reply after safe held _ taken
  have free : command.Free := by
    cases command with
    | random => exact trivial
    | sleep delay => exact trivial
    | inc counter => exact trivial
    | _ => cases pausing
  exact ⟨safety_guarantee safe (owes_of_free free) taken,
    lasting before after (exec_grows taken) held⟩

/-- A program whose commands owe nothing keeps a lasting assertion. -/
theorem wp_of_free {α : Type} {body : App α} {state : State}
    (uses : body.Uses Command.Free) (lasting : Lasting holds)
    (current : holds state) :
    (safety spare world).wp task body (fun _ after => holds after) state := by
  refine Discipline.wp_of_uses lasting.stable ?_ uses current
  intro command before choice reply after free safe held _ taken
  exact ⟨safety_guarantee safe (owes_of_free free) taken,
    lasting before after (exec_grows taken) held⟩

/-- A lasting assertion can be carried past any program. -/
theorem wp_carry {α : Type} {body : App α}
    {post : Except PyException α → State → Prop} {state : State}
    (lasting : Lasting holds) (current : holds state)
    (right : (safety spare world).wp task body post state) :
    (safety spare world).wp task body
      (fun outcome after => post outcome after ∧ holds after) state :=
  lasting.carried (fun _ _ others => others.toGrows) current right

end Safety

end TxnEvents
