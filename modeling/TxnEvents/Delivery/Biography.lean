import TxnEvents.Delivery.Loops

/-!
# The biography of one message

What the history of a run says about one message: its deliveries, the notes
about it, and the ends of workers.  A step adds at most one happening to it,
and `Turn` says which and when.  `turn_invariant` is the induction over runs
for what is told from one biography.
-/

namespace TxnEvents

open Effects Streams App

/-! ## What a biography tells -/

/-- The note is about the message. -/
def Note.concerns (id : Nat) : Note → Bool
  | processStarted msgId _ => msgId = id
  | processEnded msgId _ => msgId = id
  | deadLettering msgId _ => msgId = id
  | finished msgId => msgId = id
  | insertReturned _ _ => false
  | answered _ _ => false

def Happening.touches (id : Nat) : Happening → Bool
  | delivered _ msgId => msgId = id
  | rateAnswered _ _ _ => false
  | noted _ note => note.concerns id
  | killed _ => true

def biography (id : Nat) (history : History) : History :=
  history.filter (Happening.touches id)

def Happening.notes (select : Note → Bool) : Happening → Bool
  | noted _ note => select note
  | _ => false

/-- How many notes of a kind have been made. -/
def tally (select : Note → Bool) (history : History) : Nat :=
  history.countP (Happening.notes select)

section History

variable {history : History} {task actor : Tid} {id : Nat}

theorem Note.moves_of_not_concerns {note : Note}
    (elsewhere : note.concerns id = false) (before : Phase) :
    note.moves id before = before := by
  cases note with
  | insertReturned inserted value => rfl
  | answered request response => rfl
  | _ => exact if_neg (of_decide_eq_false elsewhere)

/-- Only the end of its handling leaves a message idle. -/
theorem Note.eq_finished_of_moves_idle {note : Note} {before : Phase}
    (concerns : note.concerns id = true)
    (idle : note.moves id before = .idle) : note = .finished id := by
  cases note with
  | finished msgId =>
      have same : msgId = id := of_decide_eq_true concerns
      rw [same]
  | insertReturned inserted value => cases concerns
  | answered request response => cases concerns
  | _ =>
      rw [Note.moves, if_pos (of_decide_eq_true concerns)] at idle
      cases idle

theorem Happening.moves_of_not_touches {happening : Happening}
    (elsewhere : happening.touches id = false) (before : Phase) :
    happening.moves task id before = before := by
  cases happening with
  | delivered by_ msgId =>
      exact if_neg fun same => of_decide_eq_false elsewhere same.2
  | rateAnswered by_ currency rate => rfl
  | noted by_ note =>
      simp only [Happening.moves, Note.moves_of_not_concerns elsewhere,
        ite_self]
  | killed name => cases elsewhere

theorem biography_cons_of_touches {happening : Happening}
    (touches : happening.touches id = true) :
    biography id (happening :: history) = happening :: biography id history :=
  List.filter_cons_of_pos touches

theorem biography_cons_of_not_touches {happening : Happening}
    (elsewhere : happening.touches id = false) :
    biography id (happening :: history) = biography id history :=
  List.filter_cons_of_neg (by simp [elsewhere])

theorem phase_biography :
    phase (biography id history) task id = phase history task id := by
  induction history with
  | nil => rfl
  | cons happening rest inductionHypothesis =>
      cases touches : happening.touches id with
      | true =>
          rw [biography_cons_of_touches touches, phase_cons, phase_cons,
            inductionHypothesis]
      | false =>
          rw [biography_cons_of_not_touches touches, phase_cons,
            Happening.moves_of_not_touches touches, inductionHypothesis]

theorem Happening.touches_of_isDelivery {happening : Happening}
    (delivery : happening.isDelivery id = true) :
    happening.touches id = true := by
  cases happening with
  | delivered by_ msgId => exact delivery
  | _ => cases delivery

theorem deliveries_biography :
    deliveries (biography id history) id = deliveries history id := by
  rw [deliveries, biography, List.countP_filter, deliveries]
  apply List.countP_congr
  intro happening _
  constructor
  · intro both
    exact (Bool.and_eq_true_iff.mp both).1
  · intro delivery
    exact Bool.and_eq_true_iff.mpr
      ⟨delivery, Happening.touches_of_isDelivery delivery⟩

theorem lastOrdinal_cons_of_not_delivery {happening : Happening}
    (other : happening.isDelivery id = false) :
    lastOrdinal task id (happening :: history) =
      lastOrdinal task id history := by
  cases happening with
  | delivered by_ msgId =>
      exact if_neg fun same => of_decide_eq_false other same.2
  | _ => rfl

theorem lastOrdinal_biography :
    lastOrdinal task id (biography id history) =
      lastOrdinal task id history := by
  induction history with
  | nil => rfl
  | cons happening rest inductionHypothesis =>
      cases touches : happening.touches id with
      | true =>
          rw [biography_cons_of_touches touches]
          cases happening with
          | delivered by_ msgId =>
              rw [lastOrdinal, lastOrdinal, inductionHypothesis,
                deliveries_biography]
          | _ => exact inductionHypothesis
      | false =>
          have quiet : happening.isDelivery id = false := by
            by_contra delivery
            rw [Happening.touches_of_isDelivery (by simpa using delivery)]
              at touches
            cases touches
          rw [biography_cons_of_not_touches touches,
            lastOrdinal_cons_of_not_delivery quiet, inductionHypothesis]

/-- Notes of a kind that is about the message are in its biography. -/
theorem tally_biography {select : Note → Bool}
    (about : ∀ note, select note = true → note.concerns id = true) :
    tally select (biography id history) = tally select history := by
  rw [tally, biography, List.countP_filter, tally]
  apply List.countP_congr
  intro happening _
  constructor
  · intro both
    exact (Bool.and_eq_true_iff.mp both).1
  · intro noted
    refine Bool.and_eq_true_iff.mpr ⟨noted, ?_⟩
    cases happening with
    | noted by_ note => exact about note noted
    | _ => cases noted

theorem biography_deliver {ids : List Nat} (nodup : ids.Nodup) :
    biography id ((ids.map (Happening.delivered actor)).reverse ++ history) =
      if id ∈ ids then .delivered actor id :: biography id history
      else biography id history := by
  induction ids generalizing history with
  | nil => rfl
  | cons first rest inductionHypothesis =>
      obtain ⟨absent, restNodup⟩ := List.nodup_cons.mp nodup
      rw [List.map_cons, List.reverse_cons, List.append_assoc,
        List.singleton_append, inductionHypothesis restNodup]
      by_cases newest : first = id
      · rw [newest] at absent
        simp [biography, Happening.touches, newest, absent]
      · simp [biography, Happening.touches, newest, Ne.symm newest]

end History

/-! ## Adding to a biography -/

/-- The step tells one more happening about the message. -/
def Adds (id : Nat) (happening : Happening) (before after : State) : Prop :=
  biography id after.history = happening :: biography id before.history

/-- The step tells nothing new about the message. -/
def Silent (id : Nat) (before after : State) : Prop :=
  biography id after.history = biography id before.history

section Adds

variable {before after : State} {id : Nat} {happening : Happening}

theorem Silent.phase (silent : Silent id before after) (task : Tid) :
    phase after.history task id = phase before.history task id := by
  rw [← phase_biography, silent, phase_biography]

theorem Silent.deliveries (silent : Silent id before after) :
    deliveries after.history id = deliveries before.history id := by
  rw [← deliveries_biography, silent, deliveries_biography]

theorem Silent.lastOrdinal (silent : Silent id before after) (task : Tid) :
    lastOrdinal task id after.history = lastOrdinal task id before.history := by
  rw [← lastOrdinal_biography, silent, lastOrdinal_biography]

theorem Silent.tally {select : Note → Bool} (silent : Silent id before after)
    (about : ∀ note, select note = true → note.concerns id = true) :
    tally select after.history = tally select before.history := by
  rw [← tally_biography about, silent, tally_biography about]

theorem Adds.phase (adds : Adds id happening before after) (task : Tid) :
    phase after.history task id =
      happening.moves task id (phase before.history task id) := by
  rw [← phase_biography, adds, phase_cons, phase_biography]

theorem Adds.deliveries (adds : Adds id happening before after) :
    deliveries after.history id =
      deliveries before.history id +
        if happening.isDelivery id = true then 1 else 0 := by
  rw [← deliveries_biography, adds, TxnEvents.deliveries, List.countP_cons,
    ← TxnEvents.deliveries, deliveries_biography]

theorem Adds.lastOrdinal (adds : Adds id happening before after)
    (other : happening.isDelivery id = false) (task : Tid) :
    lastOrdinal task id after.history = lastOrdinal task id before.history := by
  rw [← lastOrdinal_biography, adds, lastOrdinal_cons_of_not_delivery other,
    lastOrdinal_biography]

theorem Adds.lastOrdinal_delivered {actor : Tid}
    (adds : Adds id (.delivered actor id) before after) (task : Tid) :
    TxnEvents.lastOrdinal task id after.history =
      if actor = task then TxnEvents.deliveries before.history id + 1
      else TxnEvents.lastOrdinal task id before.history := by
  rw [← lastOrdinal_biography, adds, TxnEvents.lastOrdinal,
    lastOrdinal_biography, deliveries_biography]
  simp

theorem Adds.tally {select : Note → Bool}
    (adds : Adds id happening before after)
    (about : ∀ note, select note = true → note.concerns id = true) :
    tally select after.history =
      tally select before.history +
        if happening.notes select = true then 1 else 0 := by
  rw [← tally_biography about, adds, TxnEvents.tally, List.countP_cons,
    ← TxnEvents.tally, tally_biography about]

end Adds

/-! ## Turns -/

/-- What XAUTOCLAIM would hand out now. -/
def State.claimable (state : State) (minIdleTime : Int) (startId : MsgId)
    (count : Int) : List MsgId :=
  match state.redis.group with
  | none => []
  | some group =>
      (group.claimScan state.redis.stream state.redis.now minIdleTime.toNat
        startId count.toNat).claimed

/-- What a permitted step does to the biography of a message. -/
inductive Turn (world : World) (acks : Prop) (permit : AppPermit) (id : Nat)
    (before : AppConfig) (after : State) : Prop
  | quiet (silent : Silent id before.shared after)
      (pending : after.Pending id → before.shared.Pending id)
  | read {name : Nat} (running : before.tasks (.consume name) ≠ none)
      (resting : Resting before.shared (.consume name))
      (fresh : ¬ before.shared.HandedOut id) (pending : after.Pending id)
      (adds : Adds id (.delivered (.consume name) id) before.shared after)
  | claim {name : Nat} {minIdleTime count : Int} {startId : MsgId}
      {choice : Choice} (running : before.tasks (.reclaim name) ≠ none)
      (resting : Resting before.shared (.reclaim name))
      (permitted : permit.command before.shared (.reclaim name)
        (.xautoclaim minIdleTime startId count) choice)
      (claimed : id ∈ before.shared.claimable minIdleTime startId count)
      (wasPending : before.shared.Pending id) (pending : after.Pending id)
      (adds : Adds id (.delivered (.reclaim name) id) before.shared after)
  | noted {task : Tid} {note : Note} (concerns : note.concerns id = true)
      (conduct : Conduct world acks before.shared task (.observe note))
      (pending : after.Pending id ↔ before.shared.Pending id)
      (adds : Adds id (.noted task note) before.shared after)
  | killed {name : Nat} (permitted : permit.env before.shared (.kill name))
      (pending : after.Pending id ↔ before.shared.Pending id)
      (adds : Adds id (.killed name) before.shared after)

section Turn

variable {world : World} {acks : Prop} {permit : AppPermit} {id : Nat}

theorem pending_of_redis_eq {before after : State}
    (same : after.redis = before.redis) :
    after.Pending id ↔ before.Pending id := by
  rw [State.Pending, same, State.Pending]

/-- Only deliveries make a message pending. -/
theorem pending_exec {state after : State} {task : Tid} {command : Command}
    {choice : Choice} {reply : Except PyException command.Reply}
    (other : command.delivers = false)
    (taken : exec world state task command choice = some (reply, after))
    (pending : after.Pending id) : state.Pending id := by
  by_cases redis : command.isRedis = false
  · exact (pending_of_redis_eq (redis_of_not_isRedis redis taken)).mp pending
  · cases command with
    | xgroupCreate =>
        rcases exec_xgroupCreate taken with same | ⟨_, created⟩
        · rwa [same] at pending
        · rw [created] at pending
          obtain ⟨group, found, entry, member, _⟩ := pending
          cases found
          cases member
    | xadd fields maxlen =>
        rcases exec_xadd taken with ⟨same, _⟩ | ⟨stream, _, reached, _⟩
        · rwa [same] at pending
        · rw [reached] at pending
          exact pending
    | xpendingRange msgId =>
        rwa [(exec_xpendingRange taken).1] at pending
    | xack msgId =>
        rcases settle_state taken with same | reached
        · rwa [same] at pending
        · rw [reached] at pending
          obtain ⟨current, found, member⟩ := pending
          obtain ⟨group, old, rfl⟩ := Option.map_eq_some_iff.mp found
          exact ⟨group, old, ((Group.pending_ack_iff _ _ _).mp member).1⟩
    | xaddDlq origin fields =>
        rcases settle_state taken with same | reached
        · rwa [same] at pending
        · rw [reached] at pending
          exact pending
    | xreadgroup count => cases other
    | xautoclaim minIdleTime startId count => cases other
    | _ => exact absurd rfl redis

theorem turn_read {before : AppConfig} {after : State} {task : Tid}
    {count : Int} {choice : Choice}
    {reply : Except PyException (List (MsgId × Python.Dict))}
    (running : before.tasks task ≠ none)
    (conduct : Conduct world acks before.shared task (.xreadgroup count))
    (taken : exec world before.shared task (.xreadgroup count) choice =
      some (reply, after)) :
    Turn world acks permit id before after := by
  obtain ⟨⟨name, rfl⟩, resting⟩ := conduct
  rcases exec_xreadgroup taken with ⟨same, _⟩ | ⟨group, found, reached, _⟩
  · rw [same]
    exact .quiet rfl fun pending => pending
  · have told : biography id after.history =
        if id ∈ group.unread before.shared.redis.stream (some count.toNat) then
          .delivered (.consume name) id :: biography id before.shared.history
        else biography id before.shared.history := by
      rw [reached]
      exact biography_deliver (Group.unread_nodup _ _ _)
    have pendingIff := Group.pending_read_iff group before.shared.redis.stream
      (some count.toNat) before.shared.redis.now id
    by_cases handed : id ∈
        group.unread before.shared.redis.stream (some count.toNat)
    · refine .read running resting ?_ ?_ ?_
      · rintro ⟨current, same, below⟩
        rw [found] at same
        cases same
        exact absurd below (Nat.not_lt.mpr (Group.mem_unread handed).1)
      · rw [reached]
        exact ⟨_, rfl, pendingIff.mpr (Or.inr handed)⟩
      · rwa [if_pos handed] at told
    · refine .quiet ?_ ?_
      · rwa [if_neg handed] at told
      · rw [reached]
        rintro ⟨current, same, pending⟩
        cases same
        exact ⟨group, found, (pendingIff.mp pending).resolve_right handed⟩

theorem turn_claim {before : AppConfig} {after : State} {task : Tid}
    {minIdleTime count : Int} {startId : MsgId} {choice : Choice}
    {reply : Except PyException ClaimReply}
    (running : before.tasks task ≠ none)
    (permitted : permit.command before.shared task
      (.xautoclaim minIdleTime startId count) choice)
    (conduct : Conduct world acks before.shared task
      (.xautoclaim minIdleTime startId count))
    (taken : exec world before.shared task
      (.xautoclaim minIdleTime startId count) choice = some (reply, after)) :
    Turn world acks permit id before after := by
  obtain ⟨⟨name, rfl⟩, resting⟩ := conduct
  rcases exec_xautoclaim taken with ⟨same, _⟩ | ⟨group, found, reached, _⟩
  · rw [same]
    exact .quiet rfl fun pending => pending
  · have told : biography id after.history =
        if id ∈ (group.claimScan before.shared.redis.stream
            before.shared.redis.now minIdleTime.toNat startId
            count.toNat).claimed then
          .delivered (.reclaim name) id :: biography id before.shared.history
        else biography id before.shared.history := by
      rw [reached]
      exact biography_deliver Group.claimed_nodup
    by_cases handed : id ∈ (group.claimScan before.shared.redis.stream
        before.shared.redis.now minIdleTime.toNat startId count.toNat).claimed
    · refine .claim running resting permitted ?_ ?_ ?_ ?_
      · rw [State.claimable, found]
        exact handed
      · exact ⟨group, found, Group.pending_of_claimed handed⟩
      · rw [reached]
        exact ⟨_, rfl, Group.pending_claim_of_claimed handed⟩
      · rwa [if_pos handed] at told
    · refine .quiet ?_ ?_
      · rwa [if_neg handed] at told
      · rw [reached]
        rintro ⟨current, same, pending⟩
        cases same
        exact ⟨group, found, ((Group.pending_claim_iff id).mp pending).1⟩

/-- Every command of a task that behaves is a turn for every message. -/
theorem turn_exec {before : AppConfig} {after : State} {task : Tid}
    {command : Command} {choice : Choice}
    {reply : Except PyException command.Reply}
    (running : before.tasks task ≠ none)
    (permitted : permit.command before.shared task command choice)
    (conduct : Conduct world acks before.shared task command)
    (taken : exec world before.shared task command choice =
      some (reply, after)) :
    Turn world acks permit id before after := by
  by_cases delivering : command.delivers = true
  · cases command with
    | xreadgroup count => exact turn_read running conduct taken
    | xautoclaim minIdleTime startId count =>
        exact turn_claim running permitted conduct taken
    | _ => cases delivering
  · have quiet : command.delivers = false := by simpa using delivering
    have pending : after.Pending id → before.shared.Pending id :=
      pending_exec quiet taken
    rcases history_cases quiet taken with
      same | ⟨currency, rate, _, _, equality⟩ | ⟨note, rfl, equality⟩
    · refine .quiet ?_ pending
      rw [Silent, same]
    · refine .quiet ?_ pending
      rw [Silent, equality]
      exact biography_cons_of_not_touches rfl
    · by_cases concerns : note.concerns id = true
      · refine .noted concerns conduct ?_ ?_
        · exact pending_of_redis_eq (redis_of_not_isRedis rfl taken)
        · rw [Adds, equality]
          exact biography_cons_of_touches concerns
      · refine .quiet ?_ pending
        rw [Silent, equality]
        exact biography_cons_of_not_touches
          (by simpa [Happening.touches] using concerns)

theorem turn_happen {before : AppConfig} {after : State} {event : Event}
    {tasksAfter : AppTasks} (permitted : permit.env before.shared event)
    (happened : happen world event before.shared before.tasks =
      some (after, tasksAfter)) :
    Turn world acks permit id before after := by
  cases event with
  | ask number request =>
      simp only [happen] at happened
      split at happened
      · cases happened
        exact .quiet rfl fun pending => pending
      · cases happened
  | hangUp number =>
      cases happened
      exact .quiet rfl fun pending => pending
  | startWorker name =>
      simp only [happen] at happened
      split at happened
      · cases happened
        exact .quiet rfl fun pending => pending
      · cases happened
  | kill name =>
      cases happened
      exact .killed permitted Iff.rfl rfl
  | tick milliseconds =>
      cases happened
      exact .quiet rfl fun pending => pending
  | inject fields =>
      cases happened
      exact .quiet rfl fun pending => pending

/-- What holds at first and survives every turn of a message holds in every
state of the permitted runs. -/
theorem turn_invariant (id : Nat)
    (within : ∀ state task command choice,
      permit.command state task command choice →
        (acking acks).command state task command choice)
    {holds : State → Prop} (initial : holds State.initial)
    (turn : ∀ before after, Reaches world permit before →
      Grows before.shared after → Turn world acks permit id before after →
        holds before.shared → holds after)
    {config : AppConfig} (reaches : Reaches world permit config) :
    holds config.shared := by
  refine Discipline.invariant (fun _ reached => reaches_good within reached)
    within initial ?_ ?_ reaches
  · intro before task command resume choice reply after reached running
      permitted _ owes taken held
    refine turn before after reached (exec_grows taken) ?_ held
    refine turn_exec ?_ permitted owes taken
    rw [running]
    exact Option.some_ne_none _
  · intro before event after tasksAfter reached permitted _ happened held
    exact turn before after reached (happen_grows happened)
      (turn_happen permitted happened) held

end Turn

end TxnEvents
