import TxnEvents.Delivery.Turns
import TxnEvents.Effects.Costs

/-!
# Dead letters, deliveries and metrics

The balance of a worker compares its dead letters and its finished deliveries
with what its counters say about them, less the deliveries of entries that do
not parse, which no counter knows.  Every command moves the balance by a fixed
amount.
-/

namespace TxnEvents

open Effects Python Streams

/-! ## Figures -/

def State.tally (state : State) (name : Nat) (counter : Counter) : Nat :=
  (state.memory (.worker name)).counters counter

def Happening.finishes (name : Nat) : Happening → Bool
  | noted task (.finished _) => task.process = .worker name
  | _ => false

/-- How many deliveries the worker has finished. -/
def State.finished (state : State) (name : Nat) : Nat :=
  state.history.countP (Happening.finishes name)

def failsToParse (world : World) (fields : Dict) : Bool :=
  match parseFields world.unicode world.json fields with
  | .ok _ => false
  | .error _ => true

def State.unreadable (state : State) (world : World) (id : MsgId) : Bool :=
  (state.entryFields id).any (failsToParse world)

def Happening.handsOutUnreadable (world : World) (state : State) :
    Happening → Bool
  | delivered _ msgId => state.unreadable world msgId
  | _ => false

/-- How many entries that do not parse have been handed out. -/
def State.unreadableDeliveries (state : State) (world : World) : Nat :=
  state.history.countP (Happening.handsOutUnreadable world state)

/-- The metrics of the worker account for its dead letters and for its
finished deliveries, where it is the only one to write dead letters. -/
structure MetricsAgree (name : Nat) (state : State) : Prop where
  deadLetters :
    state.redis.deadLetters.length =
      state.tally name (.eventsFailed .permanent) +
        state.tally name (.eventsFailed .exhausted) +
          state.tally name (.eventsFailed .unexpected)
  deliveries :
    state.finished name =
      state.tally name (.eventsProcessed .processed) +
        state.tally name (.eventsProcessed .duplicate) +
          state.tally name (.eventsFailed .transient) +
            state.tally name (.eventsFailed .permanent) +
              state.tally name (.eventsFailed .exhausted) +
                state.tally name (.eventsFailed .unexpected)

instance (name : Nat) (state : State) : Decidable (MetricsAgree name state) :=
  decidable_of_iff (_ ∧ _) ⟨fun both => ⟨both.1, both.2⟩,
    fun agree => ⟨agree.deadLetters, agree.deliveries⟩⟩

theorem failsToParse_iff {world : World} {fields : Dict} :
    failsToParse world fields = true ↔
      ∃ error, parseFields world.unicode world.json fields = .error error := by
  unfold failsToParse
  cases parseFields world.unicode world.json fields with
  | ok event => simp
  | error error => simp

theorem unreadable_iff {world : World} {state : State} {id : MsgId} :
    state.unreadable world id = true ↔ Unreadable world state id := by
  rw [State.unreadable, Option.any_eq_true]
  simp only [failsToParse_iff, Unreadable]
  constructor
  · intro found
    obtain ⟨fields, entry, error, failed⟩ := found
    exact ⟨fields, error, entry, failed⟩
  · intro found
    obtain ⟨fields, error, entry, failed⟩ := found
    exact ⟨fields, entry, error, failed⟩

theorem unreadableDeliveries_eq_zero_iff {world : World} {state : State} :
    state.unreadableDeliveries world = 0 ↔
      ∀ task id, .delivered task id ∈ state.history →
        ¬ Unreadable world state id := by
  rw [State.unreadableDeliveries, List.countP_eq_zero]
  constructor
  · intro none task id member unreadable
    exact none _ member (unreadable_iff.mpr unreadable)
  · intro readable happening member
    cases happening with
    | delivered task id =>
        intro fails
        exact readable task id member (unreadable_iff.mp fails)
    | rateAnswered task currency rate => exact Bool.false_ne_true
    | noted task note => exact Bool.false_ne_true
    | killed name => exact Bool.false_ne_true

/-! ## The balance -/

/-- Dead letters and finished deliveries, less what is counted and less the
deliveries of entries that do not parse. -/
def balanceOf (letters : Nat) (tally : Counter → Nat)
    (finished unreadable : Nat) : ℤ × ℤ :=
  ( letters -
      (tally (.eventsFailed .permanent) + tally (.eventsFailed .exhausted) +
        tally (.eventsFailed .unexpected)) - unreadable,
    finished -
      (tally (.eventsProcessed .processed) +
        tally (.eventsProcessed .duplicate) +
          tally (.eventsFailed .transient) + tally (.eventsFailed .permanent) +
            tally (.eventsFailed .exhausted) +
              tally (.eventsFailed .unexpected)) - unreadable )

theorem balanceOf_add (letters moreLetters finished moreFinished unreadable
    moreUnreadable : Nat) (tally moreTally : Counter → Nat) :
    balanceOf (letters + moreLetters)
        (fun counter => tally counter + moreTally counter)
        (finished + moreFinished) (unreadable + moreUnreadable) =
      balanceOf letters tally finished unreadable +
        balanceOf moreLetters moreTally moreFinished moreUnreadable := by
  simp only [balanceOf, Prod.mk_add_mk, Prod.mk.injEq]
  push_cast
  constructor
  · omega
  · omega

/-- The balance of the worker. -/
def balance (world : World) (name : Nat) (state : State) : ℤ × ℤ :=
  balanceOf state.redis.deadLetters.length (state.tally name)
    (state.finished name) (state.unreadableDeliveries world)

theorem agree_iff_of_balance {world : World} {name : Nat} {state : State}
    (balanced : balance world name state = 0) :
    MetricsAgree name state ↔ state.unreadableDeliveries world = 0 := by
  have both := Prod.ext_iff.mp balanced
  simp only [balance, balanceOf, Prod.fst_zero, Prod.snd_zero] at both
  obtain ⟨letters, deliveries⟩ := both
  constructor
  · intro agree
    have counted := agree.deadLetters
    omega
  · intro none
    rw [none] at letters deliveries
    constructor
    · omega
    · omega

/-! ## What a command moves -/

def Command.letters : Command → Nat
  | xaddDlq _ _ => 1
  | _ => 0

def Command.tallies (name : Nat) (task : Tid) (counter : Counter) :
    Command → Nat
  | inc counted =>
      if task.process = .worker name ∧ counted = counter then 1 else 0
  | _ => 0

def Command.finishes (name : Nat) (task : Tid) : Command → Nat
  | observe (.finished _) => if task.process = .worker name then 1 else 0
  | _ => 0

def unreadableAmong (world : World) (entries : List (MsgId × Dict)) : Nat :=
  entries.countP fun entry => failsToParse world entry.2

def unreadableIn (world : World) : (command : Command) →
    Except PyException command.Reply → Nat
  | .xreadgroup _, .ok entries => unreadableAmong world entries
  | .xautoclaim _ _ _, .ok reply => unreadableAmong world reply.claimed
  | _, _ => 0

/-- What an answered command moves the balance by. -/
def metricsTariff (world : World) (name : Nat) (task : Tid) :
    Tariff appSig (ℤ × ℤ) :=
  fun command reply =>
    balanceOf (Command.letters command)
      (fun counter => Command.tallies name task counter command)
      (Command.finishes name task command) (unreadableIn world command reply)

/-- What stays in the process and what goes to Redis is answered without an
error. -/
def Unfailing : Answering appSig :=
  fun command reply =>
    (Command.staysInside command || Command.isRedis command) = true →
      ∃ value, reply = .ok value

theorem unfailing_answerable (command : Command) :
    ∃ reply, Unfailing command reply := by
  cases command with
  | xreadgroup count => exact ⟨.ok [], fun _ => ⟨[], rfl⟩⟩
  | xautoclaim minIdleTime startId count =>
      exact ⟨.ok ⟨none, [], []⟩, fun _ => ⟨_, rfl⟩⟩
  | xadd fields maxlen => exact ⟨.ok (0 : Nat), fun _ => ⟨_, rfl⟩⟩
  | xpendingRange msgId => exact ⟨.ok [], fun _ => ⟨_, rfl⟩⟩
  | httpGet currency =>
      exact ⟨.error noGroup, fun sure => absurd sure Bool.false_ne_true⟩
  | execute row =>
      exact ⟨.error noGroup, fun sure => absurd sure Bool.false_ne_true⟩
  | select =>
      exact ⟨.error noGroup, fun sure => absurd sure Bool.false_ne_true⟩
  | cacheGet currency => exact ⟨.ok none, fun _ => ⟨_, rfl⟩⟩
  | monotonic => exact ⟨.ok ClockReading.zero, fun _ => ⟨_, rfl⟩⟩
  | utcNow => exact ⟨.ok (0 : Int), fun _ => ⟨_, rfl⟩⟩
  | random => exact ⟨.ok UnitDraw.zero, fun _ => ⟨_, rfl⟩⟩
  | _ => exact ⟨.ok (), fun _ => ⟨_, rfl⟩⟩

/-! ## The effect of a command -/

section Exec

variable {world : World} {state after : State} {task : Tid}
  {command : Command} {choice : Choice}
  {reply : Except PyException command.Reply} {name : Nat}

theorem letters_exec (unfailing : Unfailing command reply)
    (taken : exec world state task command choice = some (reply, after)) :
    after.redis.deadLetters.length =
      state.redis.deadLetters.length + command.letters := by
  cases command with
  | xaddDlq origin fields =>
      obtain ⟨value, same⟩ := unfailing rfl
      rw [same] at taken
      rw [(settle_ok taken).2]
      exact List.length_append
  | _ =>
      have others : after.redis.deadLetters = state.redis.deadLetters := by
        apply deadLetters_of_not_xaddDlq _ taken
        intro dlq
        obtain ⟨origin, fields, impossible⟩ := dlq
        cases impossible
      rw [others]
      rfl

theorem tally_inc (counted counter : Counter) :
    (inc state task counted).tally name counter =
      state.tally name counter +
        (Command.inc counted).tallies name task counter := by
  simp only [State.tally, inc, State.setLocal, Command.tallies]
  by_cases own : task.process = .worker name
  · rw [own, Function.update_self]
    by_cases same : counted = counter
    · simp [same]
    · simp [same, Function.update_of_ne (Ne.symm same)]
  · simp [own, Function.update_of_ne (Ne.symm own)]

theorem tally_exec (counter : Counter)
    (taken : exec world state task command choice = some (reply, after)) :
    after.tally name counter =
      state.tally name counter + command.tallies name task counter := by
  have unmoved : ∀ memory,
      memory.counters = (state.memory task.process).counters →
        (state.setLocal task.process memory).tally name counter =
          state.tally name counter := by
    intro memory same
    simp only [State.tally, State.setLocal]
    by_cases own : Process.worker name = task.process
    · rw [own, Function.update_self, same]
    · rw [Function.update_of_ne own]
  cases command with
  | inc counted =>
      cases taken
      exact tally_inc counted counter
  | cacheSet currency rate expiresAt =>
      cases taken
      exact unmoved _ rfl
  | monotonic =>
      simp only [exec, TxnEvents.monotonic] at taken
      split at taken
      · cases taken
      · cases taken
        exact unmoved _ rfl
  | _ =>
      rw [State.tally, memory_of_not_isLocal rfl taken]
      rfl

theorem finished_exec
    (taken : exec world state task command choice = some (reply, after)) :
    after.finished name = state.finished name + command.finishes name task := by
  cases delivers : command.delivers with
  | true =>
      obtain ⟨ids, history⟩ := history_of_delivers delivers taken
      have none : ((ids.map (Happening.delivered task)).reverse).countP
          (Happening.finishes name) = 0 := by
        simp [List.countP_eq_zero, Happening.finishes]
      have noNote : command.finishes name task = 0 := by
        cases command <;> first | rfl | cases delivers
      rw [State.finished, history, List.countP_append, none, noNote,
        Nat.zero_add]
      rfl
  | false =>
      rcases history_cases delivers taken with
        same | ⟨currency, rate, rfl, _, answered⟩ | ⟨note, rfl, noted⟩
      · have noNote : command.finishes name task = 0 := by
          cases command with
          | observe note =>
              have grown := congrArg List.length same
              cases taken
              rw [history_observe] at grown
              simp at grown
          | _ => rfl
        rw [State.finished, same, noNote]
        rfl
      · rw [State.finished, answered]
        rfl
      · rw [State.finished, noted]
        cases note with
        | finished id => simp [State.finished, Happening.finishes,
            Command.finishes, List.countP_cons]
        | _ => rfl

/-- What was handed out stays as it is. -/
theorem handsOutUnreadable_grow (counted : Counted state)
    (grows : Grows state after) {happening : Happening}
    (member : happening ∈ state.history) :
    happening.handsOutUnreadable world after =
      happening.handsOutUnreadable world state := by
  cases happening with
  | delivered actor id =>
      have handedOut : state.HandedOut id :=
        handedOut_of_delivered counted (deliveries_pos_of_mem member)
      obtain ⟨group, found, below⟩ := handedOut
      have written : id < state.redis.stream.entries.length :=
        Nat.lt_of_lt_of_le below (counted.bounded group found)
      obtain ⟨more, longer⟩ := grows.entries
      have entry : after.entryFields id = state.entryFields id := by
        rw [State.entryFields, ← longer, List.getElem?_append_left written]
        rfl
      simp only [Happening.handsOutUnreadable, State.unreadable, entry]
  | _ => rfl

theorem unreadableDeliveries_grow (counted : Counted state)
    (grows : Grows state after) :
    state.history.countP (Happening.handsOutUnreadable world after) =
      state.unreadableDeliveries world := by
  apply List.countP_congr
  intro happening member
  rw [handsOutUnreadable_grow counted grows member]

theorem unreadableAmong_decodeEntries {ids : List MsgId}
    {entries : List (MsgId × Dict)}
    (decoded : state.decodeEntries ids = some entries) :
    ids.countP (state.unreadable world) = unreadableAmong world entries := by
  induction ids generalizing entries with
  | nil =>
      cases decoded
      rfl
  | cons id rest inductionHypothesis =>
      simp only [State.decodeEntries] at decoded
      split at decoded
      case h_1 fields later entry laterDecoded =>
        cases decoded
        have here : state.unreadable world id = failsToParse world fields := by
          rw [State.unreadable, entry, Option.any_some]
        rw [List.countP_cons, inductionHypothesis laterDecoded, here,
          unreadableAmong, unreadableAmong, List.countP_cons]
      case h_2 => cases decoded

/-- A batch is handed out and read. -/
theorem unreadable_handOut {group : Group} {ids : List MsgId}
    {entries : List (MsgId × Dict)} (counted : Counted state)
    (grows : Grows state (state.handOut task group ids))
    (decoded : state.decodeEntries ids = some entries) :
    (state.handOut task group ids).unreadableDeliveries world =
      state.unreadableDeliveries world + unreadableAmong world entries := by
  have batch : ((ids.map (Happening.delivered task)).reverse).countP
      (Happening.handsOutUnreadable world (state.handOut task group ids)) =
        unreadableAmong world entries := by
    rw [List.countP_reverse, List.countP_map,
      ← unreadableAmong_decodeEntries decoded]
    rfl
  have before : state.history.countP
      (Happening.handsOutUnreadable world (state.handOut task group ids)) =
        state.unreadableDeliveries world :=
    unreadableDeliveries_grow counted grows
  change List.countP _ (_ ++ state.history) = _
  rw [List.countP_append, batch, before, Nat.add_comm]

theorem unreadable_exec (counted : Counted state)
    (unfailing : Unfailing command reply)
    (taken : exec world state task command choice = some (reply, after)) :
    after.unreadableDeliveries world =
      state.unreadableDeliveries world + unreadableIn world command reply := by
  have grows : Grows state after := exec_grows taken
  cases delivers : command.delivers with
  | true =>
      cases command with
      | xreadgroup count =>
          obtain ⟨entries, replied⟩ := unfailing rfl
          rcases exec_xreadgroup taken with
            ⟨_, error, failed⟩ | ⟨group, _, reached, decoded⟩
          · rw [replied] at failed
            cases failed
          · rw [reached] at grows ⊢
            rw [unreadable_handOut counted grows (decoded entries replied),
              replied]
            rfl
      | xautoclaim minIdleTime startId count =>
          obtain ⟨answer, replied⟩ := unfailing rfl
          rcases exec_xautoclaim taken with
            ⟨_, error, failed⟩ | ⟨group, _, reached, decoded⟩
          · rw [replied] at failed
            cases failed
          · rw [reached] at grows ⊢
            rw [unreadable_handOut counted grows (decoded answer replied),
              replied]
            rfl
      | _ => cases delivers
  | false =>
      have nothing : unreadableIn world command reply = 0 := by
        cases command <;> first | rfl | cases delivers
      have before : state.history.countP
          (Happening.handsOutUnreadable world after) =
            state.unreadableDeliveries world :=
        unreadableDeliveries_grow counted grows
      rw [nothing, ← before]
      rcases history_cases delivers taken with
        same | ⟨currency, rate, _, _, answered⟩ | ⟨note, _, noted⟩
      · rw [State.unreadableDeliveries, same]
        rfl
      · rw [State.unreadableDeliveries, answered]
        rfl
      · rw [State.unreadableDeliveries, noted]
        rfl

/-- Every command moves the balance by its tariff. -/
theorem balance_exec (counted : Counted state)
    (unfailing : Unfailing command reply)
    (taken : exec world state task command choice = some (reply, after)) :
    balance world name after =
      balance world name state +
        metricsTariff world name task command reply := by
  have tallies : after.tally name = fun counter =>
      state.tally name counter + command.tallies name task counter :=
    funext fun counter => tally_exec counter taken
  rw [balance, letters_exec unfailing taken, tallies, finished_exec taken,
    unreadable_exec counted unfailing taken, balanceOf_add]
  rfl

end Exec

end TxnEvents
