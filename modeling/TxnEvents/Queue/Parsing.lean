import TxnEvents.Effects.Traces
import TxnEvents.Queue.Consumer

/-!
# What a read returns

Whatever the commands on the way are answered, a read that returns has
returned the parsed entries of its reply, in order.
-/

namespace TxnEvents

open Effects Python App

/-- The message of an entry that parses. -/
def messageOf (world : World) (deliveryCounts : MsgId → Nat)
    (entry : MsgId × Dict) : Option StreamMessage :=
  match parseFields world.unicode world.json entry.2 with
  | .ok event => some {
      msgId := entry.1
      event := event
      deliveryCount := deliveryCounts entry.1
      rawFields := entry.2 }
  | .error _ => none

/-- The commands of the dead-letter path. -/
def Command.Buries : Command → Prop
  | observe _ => True
  | xaddDlq _ _ => True
  | xack _ => True
  | _ => False

/-- Parsing a batch asks for nothing but dead letters. -/
theorem uses_parseEntries
    (world : World)
    (deliveryCounts : MsgId → Nat)
    (entries : List (MsgId × Dict)) :
    (parseEntries world deliveryCounts entries).Uses Command.Buries := by
  induction entries with
  | nil => exact trivial
  | cons entry rest inductionHypothesis =>
      rcases entry with ⟨msgId, fields⟩
      rw [parseEntries]
      split
      case h_1 exc failed =>
        split
        case isTrue =>
          apply Prog.Uses.bind
          · apply Prog.Uses.bind (Prog.Uses.perform trivial)
            intro announced
            exact Prog.Uses.bind (Prog.Uses.perform trivial) fun _ =>
              Prog.Uses.perform trivial
          · intro buried
            exact Prog.Uses.bind (Prog.Uses.perform trivial) fun _ =>
              inductionHypothesis
        case isFalse => exact trivial
      case h_2 event parsed =>
        exact Prog.Uses.bind inductionHypothesis fun _ => trivial

theorem uses_lookUpCounts
    {allowed : Command → Prop}
    (mayCount : ∀ id, allowed (.xpendingRange id))
    (deliveryCounts : MsgId → Nat)
    (entries : List (MsgId × Dict)) :
    (lookUpCounts deliveryCounts entries).Uses allowed := by
  induction entries generalizing deliveryCounts with
  | nil => exact trivial
  | cons entry rest inductionHypothesis =>
      apply Prog.Uses.bind
      · exact Prog.Uses.bind (Prog.Uses.perform (mayCount entry.1)) fun _ =>
          trivial
      · intro count
        exact inductionHypothesis _

variable {world : World} {trace : Trace appSig}
  {messages : List StreamMessage}

theorem plays_parseEntries {deliveryCounts : MsgId → Nat}
    {entries : List (MsgId × Dict)}
    (played : (parseEntries world deliveryCounts entries).Plays trace
      (.ok messages)) :
    messages = entries.filterMap (messageOf world deliveryCounts) := by
  induction entries generalizing trace messages with
  | nil =>
      obtain ⟨_, same⟩ := Prog.plays_ret_iff.mp played
      cases same
      rfl
  | cons entry rest inductionHypothesis =>
      obtain ⟨msgId, fields⟩ := entry
      rw [parseEntries] at played
      split at played
      case h_1 error failed =>
        have skipped : messageOf world deliveryCounts (msgId, fields) = none := by
          rw [messageOf, failed]
        rw [List.filterMap_cons_none skipped]
        split at played
        case isTrue =>
          simp only [Prog.monadBind_eq_bind, Prog.plays_bind_iff] at played
          rcases played with ⟨_, _, _, _, _, later⟩ | ⟨_, impossible, _⟩
          · rcases later with ⟨_, _, _, _, _, last⟩ | ⟨_, impossible, _⟩
            · exact inductionHypothesis last
            · cases impossible
          · cases impossible
        case isFalse =>
          obtain ⟨_, impossible⟩ := Prog.plays_raise_iff.mp played
          cases impossible
      case h_2 event parsed =>
        have kept : messageOf world deliveryCounts (msgId, fields) =
            some ⟨msgId, event, deliveryCounts msgId, fields⟩ := by
          rw [messageOf, parsed]
        rw [List.filterMap_cons_some kept]
        simp only [Prog.monadBind_eq_bind, Prog.plays_bind_iff] at played
        rcases played with ⟨others, _, _, _, before, returned⟩ | ⟨_, impossible, _⟩
        · obtain ⟨_, same⟩ := Prog.plays_ret_iff.mp returned
          cases same
          rw [inductionHypothesis before]
        · cases impossible

theorem plays_read (played : (read world).Plays trace (.ok messages)) :
    ∃ entries rest,
      trace = ⟨.xreadgroup world.settings.batchSize, .ok entries⟩ :: rest ∧
        messages = entries.filterMap (messageOf world fun _ => 1) := by
  rw [read, Prog.monadBind_eq_bind, Prog.plays_bind_iff] at played
  rcases played with ⟨entries, _, rest, rfl, fetched, parsed⟩ | ⟨_, impossible, _⟩
  · obtain rfl := Prog.plays_perform_iff.mp fetched
    refine ⟨entries, rest, rfl, ?_⟩
    split at parsed
    case isTrue empty =>
      obtain ⟨_, same⟩ := Prog.plays_ret_iff.mp parsed
      cases same
      rw [List.isEmpty_iff.mp empty]
      rfl
    case isFalse => exact plays_parseEntries parsed
  · cases impossible

theorem plays_claimStale {minIdleMs : Int}
    (played : (claimStale world minIdleMs).Plays trace (.ok messages)) :
    ∃ (reply : ClaimReply) (rest : Trace appSig) (deliveryCounts : MsgId → Nat),
      trace = ⟨.xautoclaim minIdleMs 0 world.settings.batchSize,
          .ok reply⟩ :: rest ∧
        messages =
          reply.claimed.filterMap (messageOf world deliveryCounts) := by
  rw [claimStale, Prog.monadBind_eq_bind, Prog.plays_bind_iff] at played
  rcases played with ⟨reply, _, rest, rfl, fetched, parsed⟩ | ⟨_, impossible, _⟩
  · obtain rfl := Prog.plays_perform_iff.mp fetched
    split at parsed
    case isTrue empty =>
      obtain ⟨_, same⟩ := Prog.plays_ret_iff.mp parsed
      cases same
      refine ⟨reply, rest, fun _ => 1, rfl, ?_⟩
      rw [List.isEmpty_iff.mp empty]
      rfl
    case isFalse =>
      rw [Prog.monadBind_eq_bind, Prog.plays_bind_iff] at parsed
      rcases parsed with
        ⟨deliveryCounts, _, _, rfl, _, last⟩ | ⟨_, impossible, _⟩
      · exact ⟨reply, _, deliveryCounts, rfl, plays_parseEntries last⟩
      · cases impossible
  · cases impossible

end TxnEvents
