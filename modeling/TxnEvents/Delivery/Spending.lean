import TxnEvents.Delivery.Metrics

/-!
# What the programs of a worker spend

`handle` counts what it dead-letters and what it finishes, so it leaves the
balance as it is.  `read` and `claim_stale` dead-letter the entries that do
not parse without counting them, which is what the balance allows for.
-/

namespace TxnEvents

open Effects Python App

/-! ## Free commands -/

/-- The commands that move no balance. -/
def Command.Uncharged : Command → Prop
  | xreadgroup _ => False
  | xautoclaim _ _ _ => False
  | xaddDlq _ _ => False
  | inc (.eventsProcessed _) => False
  | inc (.eventsFailed _) => False
  | observe (.finished _) => False
  | _ => True

section Programs

variable {world : World} {name : Nat} {task : Tid}

theorem Command.Uncharged.free {command : Command}
    (uncharged : command.Uncharged) :
    Prog.Free (metricsTariff world name task) command := by
  intro reply
  cases command with
  | inc counter =>
      cases counter with
      | eventsPublished =>
          simp [metricsTariff, balanceOf, Command.letters, Command.tallies,
            Command.finishes, unreadableIn]
      | retries operation =>
          simp [metricsTariff, balanceOf, Command.letters, Command.tallies,
            Command.finishes, unreadableIn]
      | _ => exact uncharged.elim
  | observe note =>
      cases note with
      | finished id => exact uncharged.elim
      | _ => rfl
  | _ => first | rfl | exact uncharged.elim

theorem Command.Works.uncharged {command : Command} (works : command.Works) :
    command.Uncharged := by
  cases command with
  | inc counter =>
      cases counter with
      | retries operation => exact trivial
      | _ => exact works.elim
  | observe note =>
      cases note with
      | insertReturned id inserted => exact trivial
      | _ => exact works.elim
  | _ => first | exact trivial | exact works.elim

theorem Command.Routes.uncharged {command : Command}
    (routes : command.Routes) : command.Uncharged := by
  cases command with
  | inc counter =>
      cases counter with
      | eventsPublished => exact trivial
      | _ => exact routes.elim
  | _ => first | exact trivial | exact routes.elim

theorem Command.Boots.uncharged {command : Command} (boots : command.Boots) :
    command.Uncharged := by
  cases command <;> first | exact trivial | exact boots.elim

/-! ## Charged commands -/

theorem tariff_xaddDlq {id : MsgId} {fields : Dict}
    {reply : Except PyException Unit} :
    metricsTariff world name task (.xaddDlq id fields) reply = (1, 0) := by
  rfl

theorem tariff_finished (own : task.process = .worker name) {id : MsgId}
    {reply : Except PyException Unit} :
    metricsTariff world name task (.observe (.finished id)) reply =
      (0, 1) := by
  simp [metricsTariff, balanceOf, Command.letters, Command.tallies,
    Command.finishes, unreadableIn, own]

theorem tariff_inc (own : task.process = .worker name) (counter : Counter)
    (reply : Except PyException Unit) :
    metricsTariff world name task (.inc counter) reply =
      balanceOf 0 (fun other => if counter = other then 1 else 0) 0 0 := by
  simp only [metricsTariff, Command.letters, Command.tallies,
    Command.finishes, unreadableIn, own, true_and]

theorem tariff_eventsProcessed (own : task.process = .worker name)
    {outcome : Outcome} {reply : Except PyException Unit} :
    metricsTariff world name task (.inc (.eventsProcessed outcome)) reply =
      (0, -1) := by
  rw [tariff_inc own]
  cases outcome with
  | processed => rfl
  | duplicate => rfl

theorem tariff_transient (own : task.process = .worker name)
    {reply : Except PyException Unit} :
    metricsTariff world name task (.inc (.eventsFailed .transient)) reply =
      (0, -1) := by
  rw [tariff_inc own]
  rfl

/-- The kinds of failure that dead-letter. -/
theorem tariff_eventsFailed (own : task.process = .worker name)
    {kind : FailureKind} (final : kind ≠ .transient)
    {reply : Except PyException Unit} :
    metricsTariff world name task (.inc (.eventsFailed kind)) reply =
      (-1, -1) := by
  rw [tariff_inc own]
  cases kind with
  | transient => exact absurd rfl final
  | permanent => rfl
  | exhausted => rfl
  | unexpected => rfl

/-- What the entries that do not parse add to the balance when they are
dead-lettered. -/
def unparsedDebt (world : World) (entries : List (MsgId × Dict)) : ℤ × ℤ :=
  (unreadableAmong world entries, unreadableAmong world entries)

theorem tariff_xreadgroup {count : Int} {entries : List (MsgId × Dict)} :
    metricsTariff world name task (.xreadgroup count) (.ok entries) =
      -unparsedDebt world entries := by
  simp [metricsTariff, balanceOf, Command.letters, Command.tallies,
    Command.finishes, unreadableIn, unparsedDebt]

theorem tariff_xautoclaim {minIdleTime count : Int} {startId : MsgId}
    {answer : ClaimReply} :
    metricsTariff world name task (.xautoclaim minIdleTime startId count)
      (.ok answer) = -unparsedDebt world answer.claimed := by
  simp [metricsTariff, balanceOf, Command.letters, Command.tallies,
    Command.finishes, unreadableIn, unparsedDebt]

/-- One command of the program that cannot fail. -/
theorem spends_ask {command : Command} {amount : ℤ × ℤ}
    (sure : (command.staysInside || command.isRedis) = true)
    (cost : ∀ reply, metricsTariff world name task command reply = amount) :
    (App.ask command).Spends Unfailing (metricsTariff world name task)
      amount :=
  Prog.Spends.perform fun reply answered => ⟨answered sure, cost reply⟩

theorem spends_uncharged {command : Command}
    (sure : (command.staysInside || command.isRedis) = true)
    (uncharged : command.Uncharged) :
    (App.ask command).Spends Unfailing (metricsTariff world name task) 0 :=
  spends_ask sure uncharged.free

/-! ## Dead letters -/

theorem spends_deadLetterFields {id : MsgId} {fields : Dict}
    {reason : String} :
    (deadLetterFields id fields reason).Spends Unfailing
      (metricsTariff world name task) (1, 0) := by
  have noted : (App.observe (.deadLettering id reason)).Spends Unfailing
      (metricsTariff world name task) 0 := spends_uncharged rfl trivial
  have written : (xaddDlq id (fields.set "reason" reason)).Spends Unfailing
      (metricsTariff world name task) (1, 0) :=
    spends_ask rfl fun _ => tariff_xaddDlq
  have acked : (xack id).Spends Unfailing (metricsTariff world name task) 0 :=
    spends_uncharged rfl trivial
  exact noted.bind fun _ => written.bind fun _ => acked

theorem spends_parseEntries (own : task.process = .worker name)
    {deliveryCounts : MsgId → Nat} {entries : List (MsgId × Dict)} :
    (parseEntries world deliveryCounts entries).Spends Unfailing
      (metricsTariff world name task) (unparsedDebt world entries) := by
  induction entries with
  | nil => exact Prog.Spends.ret []
  | cons entry rest inductionHypothesis =>
      obtain ⟨id, fields⟩ := entry
      rw [parseEntries]
      split
      case h_1 error failed =>
        have fails : failsToParse world fields = true :=
          failsToParse_iff.mpr ⟨error, failed⟩
        have debt : unparsedDebt world ((id, fields) :: rest) =
            (1, 0) + ((0, 1) + unparsedDebt world rest) := by
          simp [unparsedDebt, unreadableAmong, fails, add_comm]
        have finishes : (App.observe (.finished id)).Spends Unfailing
            (metricsTariff world name task) (0, 1) :=
          spends_ask rfl fun _ => tariff_finished own
        rw [if_pos (isParseError_of_parseFields failed), debt]
        exact spends_deadLetterFields.bind fun _ =>
          finishes.bind fun _ => inductionHypothesis
      case h_2 event parsed =>
        have passes : failsToParse world fields = false := by
          rw [failsToParse, parsed]
        have debt : unparsedDebt world ((id, fields) :: rest) =
            unparsedDebt world rest + 0 := by
          simp [unparsedDebt, unreadableAmong, passes]
        rw [debt]
        exact inductionHypothesis.bind fun messages => Prog.Spends.ret _

theorem spends_lookUpCounts {deliveryCounts : MsgId → Nat}
    {entries : List (MsgId × Dict)} :
    (lookUpCounts deliveryCounts entries).Spends Unfailing
      (metricsTariff world name task) 0 := by
  induction entries generalizing deliveryCounts with
  | nil => exact Prog.Spends.ret _
  | cons entry rest inductionHypothesis =>
      have looked : (xpendingRange entry.1).Spends Unfailing
          (metricsTariff world name task) 0 := spends_uncharged rfl trivial
      have counted : (deliveryCount entry.1).Spends Unfailing
          (metricsTariff world name task) 0 :=
        looked.bind fun _ => Prog.Spends.ret _
      exact counted.bind fun _ => inductionHypothesis

/-! ## One delivery -/

/-- Processing costs nothing, and its success is counted. -/
theorem costs_processAndAck (own : task.process = .worker name)
    (msg : StreamMessage) (spent : ℤ × ℤ) :
    (processAndAck world msg).Costs Unfailing (metricsTariff world name task)
      (fun outcome total =>
        match outcome with
        | .ok _ => total = spent + (0, -1)
        | .error _ => total = spent)
      spent := by
  have free : (process world msg.event).attempt.Uses
      (Prog.Free (metricsTariff world name task)) :=
    ((works_process world msg.event).mono
      fun _ works => works.uncharged.free).attempt
  apply Prog.Costs.bind
  apply Prog.Costs.of_uses free
  intro attempted
  cases attempted with
  | error error => rfl
  | ok ended =>
      have noted : (App.observe (.processEnded msg.msgId ended)).Spends
          Unfailing (metricsTariff world name task) 0 :=
        spends_uncharged rfl trivial
      apply noted.andThen
      intro _
      rw [add_zero]
      cases ended with
      | error error => rfl
      | ok outcome =>
          have acked : (ack msg.msgId).Spends Unfailing
              (metricsTariff world name task) 0 :=
            spends_uncharged rfl trivial
          have counted : (App.inc (.eventsProcessed outcome)).Spends Unfailing
              (metricsTariff world name task) (0, -1) :=
            spends_ask rfl fun _ => tariff_eventsProcessed own
          have both := acked.bind fun _ => counted
          apply (both spent).mono
          intro last total returned
          obtain ⟨⟨value, same⟩, amount⟩ := returned
          rw [same]
          exact amount

theorem spends_giveUp (own : task.process = .worker name)
    {msg : StreamMessage} {reason : String} {kind : FailureKind}
    (final : kind ≠ .transient) :
    ((deadLetter msg reason).bind fun _ =>
      App.inc (.eventsFailed kind)).Spends Unfailing
        (metricsTariff world name task) (0, -1) := by
  have counted : (App.inc (.eventsFailed kind)).Spends Unfailing
      (metricsTariff world name task) (-1, -1) :=
    spends_ask rfl fun _ => tariff_eventsFailed own final
  exact spends_deadLetterFields.bind fun _ => counted

theorem spends_handleFailure (own : task.process = .worker name)
    {msg : StreamMessage} {exc : PyException} :
    (handleFailure world msg exc).Spends Unfailing
      (metricsTariff world name task) (0, -1) := by
  unfold handleFailure
  split
  case isTrue permanent => exact spends_giveUp own (by decide)
  case isFalse =>
    split
    case isTrue transient =>
      split
      case isTrue exhausted => exact spends_giveUp own (by decide)
      case isFalse => exact spends_ask rfl fun _ => tariff_transient own
    case isFalse unexpected => exact spends_giveUp own (by decide)

/-- Whatever becomes of a delivery, `handle` counts it. -/
theorem spends_handle (own : task.process = .worker name)
    (msg : StreamMessage) :
    (handle world msg).Spends Unfailing (metricsTariff world name task) 0 := by
  have started : (App.observe
      (.processStarted msg.msgId msg.deliveryCount)).Spends Unfailing
        (metricsTariff world name task) 0 := spends_uncharged rfl trivial
  have decided : ((processAndAck world msg).tryExcept
      (handleFailure world msg)).Spends Unfailing
        (metricsTariff world name task) (0, -1) := by
    intro spent
    apply Prog.Costs.tryExcept
    apply (costs_processAndAck own msg spent).mono
    intro outcome total ended
    cases outcome with
    | ok value => exact ⟨⟨value, rfl⟩, ended⟩
    | error exc =>
        have unspent : total = spent := ended
        rw [unspent]
        exact spends_handleFailure own spent
  have finishes : (App.observe (.finished msg.msgId)).Spends Unfailing
      (metricsTariff world name task) (0, 1) :=
    spends_ask rfl fun _ => tariff_finished own
  exact started.bind fun _ => decided.bind fun _ => finishes

theorem spends_deliveries (own : task.process = .worker name)
    (messages : List StreamMessage) :
    (Prog.forEach messages (handle world)).Spends Unfailing
      (metricsTariff world name task) 0 :=
  Prog.Spends.forEach (spends_handle own)

/-! ## Rounds -/

/-- What a fetch owes for the entries that do not parse is made up for by
dead-lettering them. -/
theorem spends_read (own : task.process = .worker name) :
    (read world).Spends Unfailing (metricsTariff world name task) 0 := by
  intro spent
  apply Prog.Costs.bind
  apply Prog.Costs.perform
  intro reply answered
  obtain ⟨entries, same⟩ := answered rfl
  rw [same, tariff_xreadgroup]
  change Prog.Costs _ _ _ (if entries.isEmpty = true then _ else _) _
  split
  case isTrue empty =>
    rw [List.isEmpty_iff.mp empty]
    exact ⟨⟨[], rfl⟩, rfl⟩
  case isFalse =>
    apply (spends_parseEntries own _).mono
    intro outcome total parsed
    rw [parsed.2, neg_add_cancel_right, add_zero]
    exact ⟨parsed.1, rfl⟩

theorem spends_claimStale (own : task.process = .worker name)
    (minIdleMs : Int) :
    (claimStale world minIdleMs).Spends Unfailing
      (metricsTariff world name task) 0 := by
  intro spent
  apply Prog.Costs.bind
  apply Prog.Costs.perform
  intro reply answered
  obtain ⟨answer, same⟩ := answered rfl
  rw [same, tariff_xautoclaim]
  change Prog.Costs _ _ _ (if answer.claimed.isEmpty = true then _ else _) _
  split
  case isTrue empty =>
    rw [List.isEmpty_iff.mp empty]
    exact ⟨⟨[], rfl⟩, rfl⟩
  case isFalse =>
    apply Prog.Spends.andThen spends_lookUpCounts
    intro deliveryCounts
    apply (spends_parseEntries own _).mono
    intro outcome total parsed
    rw [parsed.2, add_zero, neg_add_cancel_right, add_zero]
    exact ⟨parsed.1, rfl⟩

/-- The programs of a loop that is inside neither `handle` nor `read` nor
`claim_stale`. -/
inductive Outside (world : World) : App Unit → Prop
  | read : Outside world (consumeRound world)
  | pause : Outside world (reclaimRound world)
  | claim : Outside world
      ((claimStale world world.settings.minIdleMs).bind fun messages =>
        Prog.forEach messages (handle world))
  | deliveries (messages : List StreamMessage) :
      Outside world (Prog.forEach messages (handle world))

theorem Outside.spends (own : task.process = .worker name)
    {program : App Unit} (outside : Outside world program) :
    program.Spends Unfailing (metricsTariff world name task) 0 := by
  have claims : ((claimStale world world.settings.minIdleMs).bind
      fun messages => Prog.forEach messages (handle world)).Spends Unfailing
        (metricsTariff world name task) 0 :=
    (spends_claimStale own _).bind (spends_deliveries own)
  cases outside with
  | read => exact (spends_read own).bind (spends_deliveries own)
  | pause =>
      have slept : (App.sleep
          (.finite world.settings.reclaimIntervalS)).Spends Unfailing
            (metricsTariff world name task) 0 := spends_uncharged rfl trivial
      exact slept.bind fun _ => claims
  | claim => exact claims
  | deliveries messages => exact spends_deliveries own messages

end Programs

end TxnEvents
