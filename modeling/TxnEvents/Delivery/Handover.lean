import TxnEvents.Delivery.Acknowledged
import TxnEvents.Effects.Executions
import TxnEvents.Queue.Parsing

/-!
# What becomes of the entries that are handed out

One call of `read` or `claim_stale`, among any others and from any state: the
client decodes the whole reply before the worker sees any of it, so the
entries are accounted for when all of them decode, and only then.
-/

namespace TxnEvents

open Effects Python Streams App

/-! ## Calls -/

/-- The server executed the command: what the client makes of the reply can
still fail to decode. -/
def Served (answer : Answer appSig) : Prop :=
  answer.command.isRedis = true →
    (∃ value, answer.reply = .ok value) ∨ answer.reply = .error undecodable

/-- The task runs the program from one state to the other, among others, and
Redis serves all its commands. -/
def Called {α : Type} (world : World) (task : Tid) (body : App α)
    (before : State) (outcome : Except PyException α) (after : State) : Prop :=
  ∃ trace : Trace appSig, body.Plays trace outcome ∧
    Executes ((system world).performs undisturbed task) (Others task) before
      trace after ∧ ∀ answer ∈ trace, Served answer

/-- A step of the task, with an answer. -/
structure Performed (world : World) (task : Tid) (command : Command)
    (met : State) (reply : Except PyException command.Reply) (left : State) :
    Prop where
  exec : ∃ choice, (command.isRedis = true → choice.fate = .ok) ∧
    exec world met task command choice = some (reply, left)
  served : Served ⟨command, reply⟩

section Called

variable {world : World} {task : Tid} {before after : State}
  {α β : Type}

theorem Called.ret {value : α} {outcome : Except PyException α}
    (called : Called world task (.ret value) before outcome after) :
    outcome = .ok value ∧ Others task before after := by
  obtain ⟨trace, played, executes, _⟩ := called
  obtain ⟨rfl, same⟩ := Prog.plays_ret_iff.mp played
  exact ⟨same, executes.after_nil⟩

theorem Called.bind {body : App α} {next : α → App β}
    {outcome : Except PyException β}
    (called : Called world task (body.bind next) before outcome after) :
    (∃ value middle, Called world task body before (.ok value) middle ∧
      Called world task (next value) middle outcome after) ∨
    ∃ error, outcome = .error error ∧
      Called world task body before (.error error) after := by
  obtain ⟨trace, played, executes, served⟩ := called
  rcases Prog.plays_bind_iff.mp played with
    ⟨value, early, late, rfl, first, second⟩ | ⟨error, same, failed⟩
  · obtain ⟨middle, firstExecutes, secondExecutes⟩ :=
      executes.of_append (Others.refl task)
    have firstServed : ∀ answer ∈ early, Served answer :=
      fun answer member => served answer (List.mem_append_left late member)
    have secondServed : ∀ answer ∈ late, Served answer :=
      fun answer member => served answer (List.mem_append_right early member)
    exact Or.inl ⟨value, middle, ⟨early, first, firstExecutes, firstServed⟩,
      ⟨late, second, secondExecutes, secondServed⟩⟩
  · exact Or.inr ⟨error, same, trace, failed, executes, served⟩

theorem Called.ask {command : Command}
    {outcome : Except PyException command.Reply}
    (called : Called world task (ask command) before outcome after) :
    ∃ met left, Others task before met ∧
      Performed world task command met outcome left ∧
        Others task left after := by
  obtain ⟨trace, played, executes, served⟩ := called
  obtain rfl := Prog.plays_perform_iff.mp played
  obtain ⟨met, left, others, performed, rest⟩ := executes.after_cons
  exact ⟨met, left, others, ⟨performed, served _ (List.mem_singleton_self _)⟩,
    rest.after_nil⟩

theorem Performed.grows {command : Command} {met left : State}
    {reply : Except PyException command.Reply}
    (performed : Performed world task command met reply left) :
    Grows met left := by
  obtain ⟨choice, _, taken⟩ := performed.exec
  exact exec_grows taken

/-- A command that cannot fail, and what follows it. -/
theorem Called.ask_bind {command : Command}
    {next : command.Reply → App α} {outcome : Except PyException α}
    (called :
      Called world task ((App.ask command).bind next) before outcome after)
    (sure : ∀ met reply left, Performed world task command met reply left →
      ∃ value, reply = .ok value) :
    ∃ value met left middle, Grows before met ∧
      Performed world task command met (.ok value) left ∧
        Grows left middle ∧
          Called world task (next value) middle outcome after := by
  rcases called.bind with ⟨value, middle, asked, later⟩ | ⟨error, _, failed⟩
  · obtain ⟨met, left, moved, performed, rested⟩ := asked.ask
    exact ⟨value, met, left, middle, moved.toGrows, performed,
      rested.toGrows, later⟩
  · obtain ⟨met, left, _, performed, _⟩ := failed.ask
    obtain ⟨_, impossible⟩ := sure met _ left performed
    cases impossible

theorem Called.grows {body : App α} {outcome : Except PyException α}
    (called : Called world task body before outcome after) :
    Grows before after := by
  obtain ⟨trace, _, executes, _⟩ := called
  apply executes.preserves (Grows before)
  · intro first second others grows
    exact grows.trans others.toGrows
  · intro met command reply left performed _ grows
    obtain ⟨choice, _, taken⟩ := performed
    exact grows.trans (exec_grows taken)
  · exact Grows.refl before

/-! ## Deliveries during a call -/

/-- The task was handed the message between the two states. -/
def DeliveredIn (task : Tid) (before after : State) (id : Nat) : Prop :=
  ∃ newer, after.history = newer ++ before.history ∧
    .delivered task id ∈ newer

variable {id : Nat}

theorem deliveredIn_iff_of_history (newer : History)
    (history : after.history = newer ++ before.history) :
    DeliveredIn task before after id ↔ .delivered task id ∈ newer := by
  constructor
  · rintro ⟨other, same, member⟩
    rw [history, List.append_left_inj] at same
    rw [same]
    exact member
  · intro member
    exact ⟨newer, history, member⟩

theorem deliveredIn_trans_iff {middle : State} (early : Grows before middle)
    (late : Grows middle after) :
    DeliveredIn task before after id ↔
      DeliveredIn task before middle id ∨ DeliveredIn task middle after id := by
  obtain ⟨older, earlyEq⟩ := early.history
  obtain ⟨newer, lateEq⟩ := late.history
  have whole : after.history = (newer ++ older) ++ before.history := by
    rw [List.append_assoc, earlyEq, lateEq]
  rw [deliveredIn_iff_of_history _ whole, deliveredIn_iff_of_history _ earlyEq.symm,
    deliveredIn_iff_of_history _ lateEq.symm, List.mem_append, or_comm]

theorem not_deliveredIn_of_others (others : Others task before after) :
    ¬ DeliveredIn task before after id := by
  obtain ⟨newer, history, elsewhere⟩ := others.own
  rw [deliveredIn_iff_of_history _ history]
  intro member
  exact elsewhere _ member rfl

theorem not_deliveredIn_of_exec {command : Command} {choice : Choice}
    {reply : Except PyException command.Reply}
    (quiet : command.delivers = false)
    (taken : exec world before task command choice = some (reply, after)) :
    ¬ DeliveredIn task before after id := by
  rcases history_cases quiet taken with
    same | ⟨currency, rate, _, _, answered⟩ | ⟨note, _, noted⟩
  · rw [deliveredIn_iff_of_history [] same]
    exact List.not_mem_nil
  · rw [deliveredIn_iff_of_history [_] answered]
    simp
  · rw [deliveredIn_iff_of_history [_] noted]
    simp

/-- A program that only reads counts and writes letters is handed nothing. -/
theorem Called.not_deliveredIn {body : App α}
    {outcome : Except PyException α}
    (called : Called world task body before outcome after)
    (quiet : body.Uses fun command : Command => command.delivers = false) :
    ¬ DeliveredIn task before after id := by
  obtain ⟨trace, played, executes, _⟩ := called
  have kept : Grows before after ∧ ¬ DeliveredIn task before after id := by
    apply executes.preserves fun state =>
      Grows before state ∧ ¬ DeliveredIn task before state id
    · rintro first second others ⟨grows, none⟩
      refine ⟨grows.trans others.toGrows, ?_⟩
      rw [deliveredIn_trans_iff grows others.toGrows, not_or]
      exact ⟨none, not_deliveredIn_of_others others⟩
    · rintro met command reply left ⟨choice, _, taken⟩ member ⟨grows, none⟩
      have moved := exec_grows taken
      refine ⟨grows.trans moved, ?_⟩
      rw [deliveredIn_trans_iff grows moved, not_or]
      exact ⟨none, not_deliveredIn_of_exec (played.uses quiet _ member) taken⟩
    · refine ⟨Grows.refl before, ?_⟩
      rw [deliveredIn_iff_of_history [] (List.nil_append _).symm]
      exact List.not_mem_nil
  exact kept.2

/-! ## Dead letters during a call -/

theorem Buried.grow (buried : Buried before id)
    (grows : Grows before after) : Buried after id := by
  obtain ⟨letter, member, origin⟩ := buried
  exact ⟨letter, grows.deadLetters.subset member, origin⟩

theorem retired_of_xack {met left : State} {outcome : Except PyException Unit}
    (handedOut : met.HandedOut id)
    (performed : Performed world task (.xack id) met outcome left) :
    outcome = .ok () ∧ left.Retired id := by
  obtain ⟨choice, fine, taken⟩ := performed.exec
  rw [exec, fine rfl] at taken
  obtain ⟨same, reached⟩ := settle_of_ok taken
  obtain ⟨group, found, below⟩ := handedOut
  refine ⟨same, ?_⟩
  rw [reached, Redis.xack]
  have acked : (met.redis.group.map (·.ack id)) = some (group.ack id) := by
    rw [found, Option.map_some]
  refine ⟨⟨group.ack id, acked, below⟩, ?_⟩
  rintro ⟨other, same, pending⟩
  rw [acked] at same
  cases same
  exact ((Group.pending_ack_iff group id id).mp pending).2 rfl

theorem buried_of_xaddDlq {met left : State} {fields : Dict}
    {outcome : Except PyException Unit}
    (performed : Performed world task (.xaddDlq id fields) met outcome left) :
    outcome = .ok () ∧ Buried left id := by
  obtain ⟨choice, fine, taken⟩ := performed.exec
  rw [exec, fine rfl] at taken
  obtain ⟨same, reached⟩ := settle_of_ok taken
  refine ⟨same, ⟨id, fields⟩, ?_, rfl⟩
  rw [reached, Redis.xaddDlq]
  exact List.mem_append_right _ (List.mem_singleton_self _)

theorem ok_of_observe {met left : State} {note : Note}
    {outcome : Except PyException Unit}
    (performed : Performed world task (.observe note) met outcome left) :
    outcome = .ok () := by
  obtain ⟨choice, _, taken⟩ := performed.exec
  cases taken
  rfl

/-- Dead-lettering buries and retires the message. -/
theorem called_deadLetterFields {fields : Dict} {reason : String}
    {outcome : Except PyException Unit}
    (called : Called world task (deadLetterFields id fields reason) before
      outcome after) (handedOut : before.HandedOut id) :
    outcome = .ok () ∧ Buried after id ∧ after.Retired id := by
  obtain ⟨_, _, _, noted, moved, announced, rested, adding⟩ :=
    called.ask_bind fun _ _ _ performed => ⟨(), ok_of_observe performed⟩
  obtain ⟨_, _, _, lettered, movedOn, added, restedOn, acking⟩ :=
    adding.ask_bind fun _ _ _ performed =>
      ⟨(), (buried_of_xaddDlq performed).1⟩
  obtain ⟨acked, _, movedLast, retiring, restedLast⟩ := acking.ask
  have buried : Buried lettered id :=
    (buried_of_xaddDlq added).2.grow restedOn
  have toNoted : Grows before noted :=
    moved.trans (announced.grows.trans rested)
  have toLettered : Grows noted lettered :=
    movedOn.trans (added.grows.trans restedOn)
  have stillHandedOut : acked.HandedOut id :=
    movedLast.handedOut id
      (toLettered.handedOut id (toNoted.handedOut id handedOut))
  obtain ⟨same, retired⟩ := retired_of_xack stillHandedOut retiring
  exact ⟨same, buried.grow acking.grows, restedLast.retired id retired⟩

/-! ## Parsing a batch -/

/-- The entry was returned as a message, or it is in the dead-letter stream
and off the pending list. -/
def AccountedIn (messages : List StreamMessage) (state : State) (id : Nat) :
    Prop :=
  (∃ msg ∈ messages, msg.msgId = id) ∨ Buried state id ∧ state.Retired id

theorem AccountedIn.grow {messages : List StreamMessage}
    (accounted : AccountedIn messages before id) (grows : Grows before after) :
    AccountedIn messages after id := by
  rcases accounted with returned | ⟨buried, retired⟩
  · exact Or.inl returned
  · exact Or.inr ⟨buried.grow grows, grows.retired id retired⟩

theorem AccountedIn.cons {messages : List StreamMessage}
    (accounted : AccountedIn messages before id) (msg : StreamMessage) :
    AccountedIn (msg :: messages) before id := by
  rcases accounted with ⟨other, member, same⟩ | buried
  · exact Or.inl ⟨other, List.mem_cons_of_mem msg member, same⟩
  · exact Or.inr buried

/-- A batch that decodes is parsed or dead-lettered, entry by entry. -/
theorem called_parseEntries {deliveryCounts : MsgId → Nat}
    {entries : List (MsgId × Dict)}
    {outcome : Except PyException (List StreamMessage)}
    (called : Called world task (parseEntries world deliveryCounts entries)
      before outcome after)
    (handedOut : ∀ entry ∈ entries, before.HandedOut entry.1) :
    ∃ messages, outcome = .ok messages ∧
      ∀ entry ∈ entries, AccountedIn messages after entry.1 := by
  induction entries generalizing before after outcome with
  | nil =>
      obtain ⟨same, _⟩ := called.ret
      exact ⟨[], same, by simp⟩
  | cons entry rest inductionHypothesis =>
      obtain ⟨msgId, fields⟩ := entry
      have here := handedOut (msgId, fields) List.mem_cons_self
      have others : ∀ entry ∈ rest, before.HandedOut entry.1 :=
        fun other member => handedOut other (List.mem_cons_of_mem _ member)
      rw [parseEntries] at called
      split at called
      case h_1 error failed =>
        rw [if_pos (isParseError_of_parseFields failed)] at called
        rcases called.bind with
          ⟨_, buried, lettered, finishing⟩ | ⟨_, _, impossible⟩
        · obtain ⟨_, isBuried, isRetired⟩ :=
            called_deadLetterFields lettered here
          obtain ⟨_, _, _, finished, moved, noted, rested, parsing⟩ :=
            finishing.ask_bind fun _ _ _ performed =>
              ⟨(), ok_of_observe performed⟩
          have toFinished : Grows buried finished :=
            moved.trans (noted.grows.trans rested)
          obtain ⟨messages, same, accounted⟩ :=
            inductionHypothesis parsing fun other member =>
              toFinished.handedOut _
                (lettered.grows.handedOut _ (others other member))
          have dealtWith : AccountedIn messages after msgId :=
            Or.inr ⟨isBuried.grow finishing.grows,
              finishing.grows.retired msgId isRetired⟩
          refine ⟨messages, same, ?_⟩
          intro other member
          rcases List.mem_cons.mp member with first | later
          · rw [first]
            exact dealtWith
          · exact accounted other later
        · cases (called_deadLetterFields impossible here).1
      case h_2 event parsed =>
        rcases called.bind with
          ⟨messages, rested, parsing, returning⟩ | ⟨_, _, impossible⟩
        · obtain ⟨_, same, accounted⟩ := inductionHypothesis parsing others
          cases same
          obtain ⟨returned, left⟩ := returning.ret
          refine ⟨_, returned, ?_⟩
          intro other member
          rcases List.mem_cons.mp member with first | later
          · rw [first]
            exact Or.inl ⟨_, List.mem_cons_self, rfl⟩
          · exact ((accounted other later).grow left.toGrows).cons _
        · obtain ⟨_, same, _⟩ := inductionHypothesis impossible others
          cases same

/-! ## Handing out a batch -/

theorem decodeEntries_eq_none_iff {state : State} {ids : List MsgId} :
    state.decodeEntries ids = none ↔
      ∃ id ∈ ids, state.entryFields id = none := by
  induction ids with
  | nil => simp [State.decodeEntries]
  | cons first rest inductionHypothesis =>
      rw [State.decodeEntries]
      cases here : state.entryFields first with
      | none => simp [here]
      | some fields =>
          cases later : state.decodeEntries rest with
          | none =>
              have missing := inductionHypothesis.mp later
              simp [here, missing]
          | some entries =>
              have present : ¬ ∃ id ∈ rest, state.entryFields id = none := by
                rw [← inductionHypothesis, later]
                exact Option.some_ne_none entries
              simp [here, present]

/-- The command handed these messages out, in this order. -/
structure HandsOut (task : Tid) (met left : State) (ids : List MsgId) :
    Prop where
  history : left.history =
    (ids.map (Happening.delivered task)).reverse ++ met.history
  handedOut : ∀ id ∈ ids, left.HandedOut id
  present : ∀ id ∈ ids, id < met.redis.stream.entries.length

theorem handsOut_handOut {met : State} {group : Streams.Group}
    {ids : List MsgId} (below : ∀ id ∈ ids, id < group.lastDelivered)
    (present : ∀ id ∈ ids, id < met.redis.stream.entries.length) :
    HandsOut task met (met.handOut task group ids) ids where
  history := rfl
  handedOut := fun id member => ⟨group, rfl, below id member⟩
  present := present

theorem not_served_of_error {command : Command} {error : PyException}
    (redis : command.isRedis = true)
    (other : error.cls ≠ .unicodeDecodeError) :
    ¬ Served ⟨command, .error error⟩ := by
  intro served
  rcases served redis with ⟨_, impossible⟩ | same
  · cases impossible
  · cases same
    exact other rfl

theorem handsOut_of_xreadgroup {count : Int} {met left : State}
    {reply : Except PyException (List (MsgId × Dict))}
    (performed : Performed world task (.xreadgroup count) met reply left) :
    ∃ ids, HandsOut task met left ids ∧
      reply = (met.decodeEntries ids).elim (.error undecodable) .ok := by
  obtain ⟨choice, fine, taken⟩ := performed.exec
  rw [exec, fine rfl] at taken
  obtain ⟨same, reached⟩ := settle_of_ok taken
  have served := performed.served
  rw [same] at served
  rw [Redis.xreadgroup] at same reached served
  split at served
  case isTrue => exact absurd served (not_served_of_error rfl (by decide))
  case isFalse positive =>
    rw [if_neg positive] at same reached
    split at served
    case h_1 => exact absurd served (not_served_of_error rfl (by decide))
    case h_2 group found =>
      rw [found] at same reached
      refine ⟨_, ?_, same⟩
      rw [reached]
      apply handsOut_handOut
      · intro id member
        have pending := (Group.pending_read_iff group met.redis.stream
          (some count.toNat) met.redis.now id).mpr (Or.inr member)
        exact pending.lt_lastDelivered
      · exact fun id member => (Group.mem_unread member).2.2

theorem handsOut_of_xautoclaim {minIdleMs count : Int} {startId : MsgId}
    {met left : State} {reply : Except PyException ClaimReply}
    (performed : Performed world task (.xautoclaim minIdleMs startId count)
      met reply left) :
    ∃ ids cursor deleted, HandsOut task met left ids ∧
      reply = (met.decodeEntries ids).elim (.error undecodable)
        fun claimed => .ok ⟨cursor, claimed, deleted⟩ := by
  obtain ⟨choice, fine, taken⟩ := performed.exec
  rw [exec, fine rfl] at taken
  obtain ⟨same, reached⟩ := settle_of_ok taken
  have served := performed.served
  rw [same] at served
  rw [Redis.xautoclaim] at same reached served
  split at served
  case isTrue => exact absurd served (not_served_of_error rfl (by decide))
  case isFalse nonnegative =>
    rw [if_neg nonnegative] at same reached
    split at served
    case isTrue =>
      refine absurd served (not_served_of_error rfl ?_)
      rcases cls_refusedCount count with refused | refused
      · rw [refused]
        decide
      · rw [refused]
        decide
    case isFalse positive =>
      rw [if_neg positive] at same reached
      split at served
      case h_1 => exact absurd served (not_served_of_error rfl (by decide))
      case h_2 group found =>
        rw [found] at same reached
        refine ⟨_, _, _, ?_, same⟩
        rw [reached]
        apply handsOut_handOut
        · exact fun id member =>
            (Group.pending_of_claimed member).lt_lastDelivered
        · exact fun id member => (Group.live_of_claimed member).2

/-! ## Counting deliveries -/

theorem ok_of_xpendingRange {met left : State}
    {outcome : Except PyException (List Nat)}
    (performed : Performed world task (.xpendingRange id) met outcome left) :
    ∃ counts, outcome = .ok counts := by
  obtain ⟨choice, fine, taken⟩ := performed.exec
  rw [exec, fine rfl] at taken
  obtain ⟨same, _⟩ := settle_of_ok taken
  have served := performed.served
  rw [same] at served
  rw [Redis.xpendingRange] at same served
  split at served
  case h_1 => exact absurd served (not_served_of_error rfl (by decide))
  case h_2 group found =>
    rw [found] at same
    exact ⟨_, same⟩

theorem called_deliveryCount {outcome : Except PyException Nat}
    (called : Called world task (deliveryCount id) before outcome after) :
    ∃ count, outcome = .ok count := by
  obtain ⟨_, _, _, _, _, _, _, returning⟩ :=
    called.ask_bind fun _ _ _ performed => ok_of_xpendingRange performed
  exact ⟨_, returning.ret.1⟩

theorem called_lookUpCounts {deliveryCounts : MsgId → Nat}
    {entries : List (MsgId × Dict)}
    {outcome : Except PyException (MsgId → Nat)}
    (called : Called world task (lookUpCounts deliveryCounts entries) before
      outcome after) : ∃ counts, outcome = .ok counts := by
  induction entries generalizing deliveryCounts before with
  | nil => exact ⟨_, called.ret.1⟩
  | cons entry rest inductionHypothesis =>
      rcases called.bind with ⟨count, _, _, later⟩ | ⟨_, _, failed⟩
      · exact inductionHypothesis later
      · obtain ⟨_, impossible⟩ := called_deliveryCount failed
        cases impossible

/-! ## Reading and claiming -/

/-- The two sources of messages. -/
inductive Fetches (world : World) : App (List StreamMessage) → Prop
  | read : Fetches world (read world)
  | claimStale (minIdleMs : Int) : Fetches world (claimStale world minIdleMs)

theorem Command.Buries.quiet
    {command : Command}
    (buries : command.Buries) : command.delivers = false := by
  cases command <;> first | rfl | exact buries.elim

/-- The call returns, and has accounted for everything it was handed. -/
def HandsOver (task : Tid) (before : State)
    (outcome : Except PyException (List StreamMessage)) (after : State) :
    Prop :=
  ∃ messages, outcome = .ok messages ∧ ∀ id,
    DeliveredIn task before after id → AccountedIn messages after id

/-- The entries that the call was handed are UTF-8 throughout. -/
def AllDecode (task : Tid) (before after : State) : Prop :=
  ∀ id, DeliveredIn task before after id → after.entryFields id ≠ none

section Batch

variable {met left : State} {ids : List MsgId}
  {outcome : Except PyException (List StreamMessage)}

/-- The call was handed what its first command handed out. -/
theorem deliveredIn_iff_of_handsOut (moved : Others task before met)
    (hands : HandsOut task met left ids) (toLeft : Grows met left)
    (toAfter : Grows left after)
    (quiet : ∀ id, ¬ DeliveredIn task left after id) :
    DeliveredIn task before after id ↔ id ∈ ids := by
  have first : DeliveredIn task met left id ↔ id ∈ ids := by
    rw [deliveredIn_iff_of_history _ hands.history]
    simp
  rw [deliveredIn_trans_iff (moved.toGrows.trans toLeft) toAfter,
    deliveredIn_trans_iff moved.toGrows toLeft, first]
  simp [quiet id, not_deliveredIn_of_others moved]

/-- What decodes when it is handed out is all that decodes afterwards. -/
theorem allDecode_iff (hands : HandsOut task met left ids)
    (grows : Grows met after)
    (delivered : ∀ id, DeliveredIn task before after id ↔ id ∈ ids) :
    AllDecode task before after ↔ met.decodeEntries ids ≠ none := by
  rw [ne_eq, decodeEntries_eq_none_iff]
  simp only [AllDecode, delivered, not_exists, not_and]
  constructor
  · intro decode id member
    rw [← grows.entryFields_eq (hands.present id member)]
    exact decode id member
  · intro decode id member
    rw [grows.entryFields_eq (hands.present id member)]
    exact decode id member

/-- A call that was handed something undecodable raises. -/
theorem handsOver_iff_of_raised {error : PyException}
    (moved : Others task before met) (hands : HandsOut task met left ids)
    (toLeft : Grows met left) (rested : Others task left after)
    (missing : met.decodeEntries ids = none) :
    HandsOver task before (.error error) after ↔
      AllDecode task before after := by
  have never : ¬ HandsOver task before (.error error) after := by
    rintro ⟨_, impossible, _⟩
    cases impossible
  have delivered : ∀ id, DeliveredIn task before after id ↔ id ∈ ids :=
    fun id => deliveredIn_iff_of_handsOut moved hands toLeft rested.toGrows
      fun _ => not_deliveredIn_of_others rested
  rw [allDecode_iff hands (toLeft.trans rested.toGrows) delivered]
  simp [never, missing]

/-- A call that was handed entries that decode accounts for them. -/
theorem handsOver_iff_of_parsed {entries : List (MsgId × Dict)}
    {middle : State} {rest : App (List StreamMessage)}
    (moved : Others task before met) (hands : HandsOut task met left ids)
    (toLeft : Grows met left) (rested : Others task left middle)
    (decoded : met.decodeEntries ids = some entries)
    (called : Called world task rest middle outcome after)
    (quiet : rest.Uses fun command : Command => command.delivers = false)
    (parsed : (∀ entry ∈ entries, middle.HandedOut entry.1) →
      ∃ messages, outcome = .ok messages ∧
        ∀ entry ∈ entries, AccountedIn messages after entry.1) :
    HandsOver task before outcome after ↔ AllDecode task before after := by
  have toAfter : Grows left after := rested.toGrows.trans called.grows
  have delivered : ∀ id, DeliveredIn task before after id ↔ id ∈ ids := by
    intro id
    apply deliveredIn_iff_of_handsOut moved hands toLeft toAfter
    intro other
    rw [deliveredIn_trans_iff rested.toGrows called.grows, not_or]
    exact ⟨not_deliveredIn_of_others rested, called.not_deliveredIn quiet⟩
  have same := decodeEntries_ids decoded
  have handedOut : ∀ entry ∈ entries, middle.HandedOut entry.1 := by
    intro entry member
    apply rested.handedOut
    apply hands.handedOut
    rw [← same]
    exact List.mem_map_of_mem member
  obtain ⟨messages, returned, accounted⟩ := parsed handedOut
  have handsOver : HandsOver task before outcome after := by
    refine ⟨messages, returned, ?_⟩
    intro id given
    have member := (delivered id).mp given
    rw [← same] at member
    obtain ⟨entry, inside, rfl⟩ := List.mem_map.mp member
    exact accounted entry inside
  rw [allDecode_iff hands (toLeft.trans toAfter) delivered, decoded]
  simp [handsOver]

/-- What follows a reply with these entries. -/
theorem called_ifEntries {entries : List (MsgId × Dict)}
    {next : App (List StreamMessage)}
    (called : Called world task
      (if entries.isEmpty = true then .ret [] else next) before outcome after)
    (parsed : Called world task next before outcome after →
      ∃ messages, outcome = .ok messages ∧
        ∀ entry ∈ entries, AccountedIn messages after entry.1) :
    ∃ messages, outcome = .ok messages ∧
      ∀ entry ∈ entries, AccountedIn messages after entry.1 := by
  split at called
  case isTrue empty =>
    refine ⟨[], called.ret.1, ?_⟩
    rw [List.isEmpty_iff.mp empty]
    simp
  case isFalse => exact parsed called

end Batch

/-- A call accounts for its batch exactly when the batch decodes. -/
theorem handsOver_iff_allDecode {body : App (List StreamMessage)}
    (fetches : Fetches world body)
    {outcome : Except PyException (List StreamMessage)}
    (called : Called world task body before outcome after) :
    HandsOver task before outcome after ↔ AllDecode task before after := by
  cases fetches with
  | read =>
      rcases called.bind with
        ⟨entries, middle, asked, parsing⟩ | ⟨error, rfl, failed⟩
      · obtain ⟨met, left, moved, performed, rested⟩ := asked.ask
        obtain ⟨ids, hands, replied⟩ := handsOut_of_xreadgroup performed
        obtain ⟨_, decoded, same⟩ := elim_error_eq_ok replied.symm
        cases same
        apply handsOver_iff_of_parsed moved hands performed.grows rested
          decoded parsing
        · split
          · exact trivial
          · exact (uses_parseEntries world _ entries).mono fun _ buries =>
              buries.quiet
        · intro handedOut
          apply called_ifEntries parsing
          intro parse
          exact called_parseEntries parse handedOut
      · obtain ⟨met, left, moved, performed, rested⟩ := failed.ask
        obtain ⟨ids, hands, replied⟩ := handsOut_of_xreadgroup performed
        exact handsOver_iff_of_raised moved hands performed.grows rested
          (none_of_elim_eq_error replied.symm)
  | claimStale minIdleMs =>
      rcases called.bind with
        ⟨reply, middle, asked, parsing⟩ | ⟨error, rfl, failed⟩
      · obtain ⟨met, left, moved, performed, rested⟩ := asked.ask
        obtain ⟨ids, _, _, hands, replied⟩ :=
          handsOut_of_xautoclaim performed
        obtain ⟨_, decoded, same⟩ := elim_error_eq_ok replied.symm
        cases same
        apply handsOver_iff_of_parsed moved hands performed.grows rested
          decoded parsing
        · split
          · exact trivial
          · apply Prog.Uses.bind (uses_lookUpCounts (fun _ => rfl) _ _)
            intro counts
            exact (uses_parseEntries world _ _).mono fun _ buries =>
              buries.quiet
        · intro handedOut
          apply called_ifEntries parsing
          intro parse
          rcases parse.bind with
            ⟨_, counted, counting, parsed⟩ | ⟨_, _, failed⟩
          · exact called_parseEntries parsed fun entry member =>
              counting.grows.handedOut _ (handedOut entry member)
          · obtain ⟨_, impossible⟩ := called_lookUpCounts failed
            cases impossible
      · obtain ⟨met, left, moved, performed, rested⟩ := failed.ask
        obtain ⟨ids, _, _, hands, replied⟩ :=
          handsOut_of_xautoclaim performed
        exact handsOver_iff_of_raised moved hands performed.grows rested
          (none_of_elim_eq_error replied.symm)

end Called

/-! ## Calls in runs -/

/-- A task that still runs was not killed. -/
theorem spared_of_running {world : World} {event : Event} {state after : State}
    {tasks tasksAfter : AppTasks} {task : Tid} {left : App Unit}
    (occurred : happen world event state tasks = some (after, tasksAfter))
    (running : tasksAfter task = some left) : ¬ event.Kills task := by
  intro kills
  cases event with
  | kill name =>
      have killed : withoutWorker tasks name = tasksAfter :=
        congrArg Prod.snd (Option.some.inj occurred)
      have gone : withoutWorker tasks name task = none := if_pos kills
      rw [← killed, gone] at running
      cases running
  | _ => exact kills

/-- In a run, a task executes its program as a call among others. -/
theorem executes_of_continues {world : World} {task : Tid}
    {started config : AppConfig} {program : App Unit}
    (continues : (system world).Continues undisturbed task started config)
    (running : started.tasks task = some program) :
    ∃ trace left, config.tasks task = some left ∧
      program.Leads trace left ∧
        Executes ((system world).performs undisturbed task) (Others task)
          started.shared trace config.shared := by
  apply continues.executes (Others.refl task) (fun _ _ _ => Others.trans) _
    running
  intro before action after left isLeft stillLeft _ taken elsewhere
  cases System.step_cases taken with
  | ran _ executed same =>
      rw [same]
      apply exec_others _ executed
      intro own
      rw [own] at elsewhere
      exact elsewhere _ rfl
  | finished _ same =>
      rw [same]
      exact Others.refl task before.shared
  | @happened event occurred =>
      exact happen_others (spared_of_running occurred stillLeft) occurred

/-! ## Calls alone -/

def isServed {α : Type} : Except PyException α → Bool
  | .ok _ => true
  | .error error => decide (error = undecodable)

/-- A command that Redis serves, with nothing unusual about it. -/
def servedEffect (world : World) (task : Tid) (state : State)
    (command : Command) : Option (Except PyException command.Reply × State) :=
  (exec world state task command {}).filter fun done =>
    !command.isRedis || isServed done.1

theorem called_of_alone {α : Type} {world : World} {task : Tid}
    {body : App α} {before after : State} {outcome : Except PyException α}
    (ran : body.alone (servedEffect world task) before =
      some (outcome, after)) :
    Called world task body before outcome after := by
  have proper : ∀ met command reply left,
      servedEffect world task met command = some (reply, left) →
        (system world).performs undisturbed task met command reply left ∧
          Served ⟨command, reply⟩ := by
    intro met command reply left done
    obtain ⟨taken, served⟩ := Option.filter_eq_some_iff.mp done
    refine ⟨⟨{}, fun _ => rfl, taken⟩, ?_⟩
    intro redis
    cases reply with
    | ok value => exact Or.inl ⟨value, rfl⟩
    | error error =>
        right
        simpa [redis, isServed] using served
  exact executes_alone (Others.refl task) proper ran

/-- A run up to the first read: the coffee, and then an entry of another
client. -/
def beforeReading (fields : WireFields) : List AppAction :=
  post 0 coffee {} ++ [.env (.inject fields)] ++ launch 0

/-- An entry whose payload is not UTF-8. -/
def latinEntry : WireFields :=
  [(.text "schema_version", .text "1"), (.text "payload", .invalid [233])]

/-- An entry without a payload. -/
def emptyEntry : WireFields :=
  [(.text "schema_version", .text "1")]

/-- The message was delivered between the two states, by their histories. -/
def newlyDelivered (task : Tid) (before after : State) (id : Nat) : Bool :=
  after.history.contains (.delivered task id) &&
    !before.history.contains (.delivered task id)

theorem deliveredIn_of_newlyDelivered {world : World} {task : Tid}
    {α : Type} {body : App α} {before after : State}
    {outcome : Except PyException α} {id : Nat}
    (called : Called world task body before outcome after)
    (newly : newlyDelivered task before after id = true) :
    DeliveredIn task before after id := by
  simp only [newlyDelivered, Bool.and_eq_true, Bool.not_eq_true',
    List.contains_eq_mem, decide_eq_true_eq, decide_eq_false_iff_not] at newly
  obtain ⟨newer, history⟩ := called.grows.history
  refine ⟨newer, history.symm, ?_⟩
  have now := newly.1
  rw [← history] at now
  exact (List.mem_append.mp now).resolve_right newly.2

/-- A read after a run. -/
theorem called_after_run (world : World) (task : Tid)
    (actions : List AppAction)
    (shows : State → Except PyException (List StreamMessage) → State → Bool)
    (taken : ((system world).run calm start actions).any (fun config =>
      ((read world).alone (servedEffect world task) config.shared).any
        fun ended => shows config.shared ended.1 ended.2) = true) :
    ∃ config, Reaches world undisturbed config ∧ ∃ outcome after,
      Called world task (read world) config.shared outcome after ∧
        shows config.shared outcome after = true := by
  obtain ⟨config, reaches, ran⟩ := reaches_of_run respects_calm taken
  obtain ⟨⟨outcome, after⟩, alone, shown⟩ := (Option.any_eq_true _ _).mp ran
  exact ⟨config, reaches, outcome, after, called_of_alone alone, shown⟩

/-- The coffee and an entry without a payload: both are handed out, and the
second one is buried. -/
theorem handsOver_iff_allDecode_coffee :
    ∃ config, Reaches (coffeeWorld {}) undisturbed config ∧
      ∃ outcome after,
        Called (coffeeWorld {}) (.consume 0) (read (coffeeWorld {}))
            config.shared outcome after ∧
          DeliveredIn (.consume 0) config.shared after 0 ∧
            DeliveredIn (.consume 0) config.shared after 1 ∧
              Buried after 1 ∧
                (HandsOver (.consume 0) config.shared outcome after ↔
                  AllDecode (.consume 0) config.shared after) := by
  obtain ⟨config, reaches, outcome, after, called, shown⟩ :=
    called_after_run (coffeeWorld {}) (.consume 0) (beforeReading emptyEntry)
      (fun before _ after =>
        newlyDelivered (.consume 0) before after 0 &&
          (newlyDelivered (.consume 0) before after 1 &&
            after.redis.deadLetters.any fun letter =>
              decide (letter.origin = 1)))
      (by decide +kernel)
  simp only [Bool.and_eq_true, List.any_eq_true, decide_eq_true_eq] at shown
  obtain ⟨first, second, letter⟩ := shown
  exact ⟨config, reaches, outcome, after, called,
    deliveredIn_of_newlyDelivered called first,
    deliveredIn_of_newlyDelivered called second, letter,
    handsOver_iff_allDecode Fetches.read called⟩

/-- The coffee was handed out and the read failed to decode. -/
def coffeeBlocked (before : State)
    (outcome : Except PyException (List StreamMessage)) (after : State) :
    Bool :=
  decide (before.entryFields 0 =
      some (publishedFields (coffeeWorld Settings.defaults).json
        coffeeEvent)) &&
    ((match outcome with
      | .ok _ => false
      | .error error => decide (error = undecodable)) &&
      (newlyDelivered (.consume 0) before after 0 &&
        ((after.redis.group.any fun group => decide (group.Pending 0)) &&
          after.redis.deadLetters.isEmpty)))

/-- An entry that is not UTF-8 keeps the coffee of its batch from being
returned, and leaves it on the pending list. -/
theorem undecodable_entry_blocks_its_batch :
    ∃ config, Reaches (coffeeWorld {}) undisturbed config ∧
      config.shared.entryFields 0 =
          some (publishedFields (coffeeWorld {}).json coffeeEvent) ∧
        ∃ after,
          Called (coffeeWorld {}) (.consume 0) (read (coffeeWorld {}))
              config.shared (.error undecodable) after ∧
            DeliveredIn (.consume 0) config.shared after 0 ∧
              after.Pending 0 ∧ after.redis.deadLetters = [] ∧
                ¬ HandsOver (.consume 0) config.shared (.error undecodable)
                  after := by
  obtain ⟨config, reaches, outcome, after, called, shown⟩ :=
    called_after_run (coffeeWorld {}) (.consume 0) (beforeReading latinEntry)
      coffeeBlocked (by decide +kernel)
  simp only [coffeeBlocked, Bool.and_eq_true, decide_eq_true_eq,
    List.isEmpty_iff] at shown
  obtain ⟨entry, raised, newly, waiting, letters⟩ := shown
  cases outcome with
  | ok messages => cases raised
  | error error =>
      have same : error = undecodable := of_decide_eq_true raised
      rw [same] at called
      obtain ⟨group, found, pending⟩ := (Option.any_eq_true _ _).mp waiting
      refine ⟨config, reaches, entry, after, called,
        deliveredIn_of_newlyDelivered called newly,
        ⟨group, found, of_decide_eq_true pending⟩, letters, ?_⟩
      rintro ⟨_, impossible, _⟩
      cases impossible

end TxnEvents
