import TxnEvents.Delivery.Turns

/-!
# The rounds of the loops respect the conduct

A round that begins with nothing in hand ends with nothing in hand, and
handles one by one what a read or a claim has given it.
-/

namespace TxnEvents

open Effects Arith Python Streams App

/-! ## Batches -/

/-- What a read or a claim leaves in the hands of its task. -/
structure Fetched (ordinals : Nat → Nat) (deliveryCounts : MsgId → Nat)
    (id : Nat) (fields : Dict) (state : State) : Prop where
  entry : state.entryFields id = some fields
  lower : state.Retired id ∨ ordinals id ≤ deliveryCounts id
  upper : deliveryCounts id ≤ deliveries state.history id
  delivered : 1 ≤ deliveries state.history id

def AllFetched (ordinals : Nat → Nat) (deliveryCounts : MsgId → Nat)
    (entries : List (MsgId × Dict)) (state : State) : Prop :=
  ∀ id fields, (id, fields) ∈ entries →
    Fetched ordinals deliveryCounts id fields state

/-- The messages in hand, after those in front of them, and nothing else. -/
structure Batch (world : World) (task : Tid) (ordinals : Nat → Nat)
    (front : List Nat) (messages : List StreamMessage) (state : State) :
    Prop where
  nodup : (front ++ messages.map StreamMessage.msgId).Nodup
  stands : Stands task
    (batchView (front ++ messages.map StreamMessage.msgId)) ordinals state
  inHand : ∀ msg ∈ messages, InHand world ordinals msg state

def BatchLeft (world : World) (task : Tid) (ordinals : Nat → Nat)
    (front : List Nat) :
    Except PyException (List StreamMessage) → State → Prop
  | .ok messages, state => Batch world task ordinals front messages state
  | .error _, _ => True

theorem Fetched.lasting (ordinals : Nat → Nat) (deliveryCounts : MsgId → Nat)
    (id : Nat) (fields : Dict) :
    Lasting (Fetched ordinals deliveryCounts id fields) := by
  intro before after grows fetched
  exact {
    entry := grows.entryFields fetched.entry
    lower := fetched.lower.imp_left (grows.retired id)
    upper := Nat.le_trans fetched.upper (grows.deliveries_le id)
    delivered := Nat.le_trans fetched.delivered (grows.deliveries_le id) }

theorem AllFetched.lasting (ordinals : Nat → Nat)
    (deliveryCounts : MsgId → Nat) (entries : List (MsgId × Dict)) :
    Lasting (AllFetched ordinals deliveryCounts entries) := by
  intro before after grows all id fields member
  exact Fetched.lasting ordinals deliveryCounts id fields before after grows
    (all id fields member)

section Batches

variable {world : World} {acks : Prop} {task : Tid} {ordinals : Nat → Nat}
  {state : State}

/-- A lasting assertion can be carried past any program. -/
theorem conduct_carry {α : Type} {body : App α}
    {post : Except PyException α → State → Prop} {holds : State → Prop}
    (lasting : Lasting holds) (current : holds state)
    (right : (conduct world acks).wp task body post state) :
    (conduct world acks).wp task body
      (fun outcome after => post outcome after ∧ holds after) state :=
  lasting.carried (fun _ _ others => others.toGrows) current right

/-- An unparseable entry is dead-lettered and let go before the others. -/
theorem conduct_unparseable {α : Type} {next : App α}
    {post : Except PyException α → State → Prop} {front back : List Nat}
    {id : Nat} {fields : Dict} {deliveryCounts : MsgId → Nat}
    {error : PyException} {frame : State → Prop}
    (nodup : (front ++ id :: back).Nodup)
    (stands : Stands task (batchView (front ++ id :: back)) ordinals state)
    (fetched : Fetched ordinals deliveryCounts id fields state)
    (failed : parseFields world.unicode world.json fields = .error error)
    (lasting : Lasting frame) (framed : frame state)
    (raised : ∀ error state, post (.error error) state)
    (rest : ∀ after, Stands task (batchView (front ++ back)) ordinals after →
      frame after → (conduct world acks).wp task next post after) :
    (conduct world acks).wp task
      ((deadLetterFields id fields ("unparseable: " ++ error.text)).bind
        fun _ => (App.observe (.finished id)).bind fun _ => next)
      post state := by
  have fetchedLasts := Fetched.lasting ordinals deliveryCounts id fields
  have different : "unparseable: " ++ error.text ≠ exhaustedReason :=
    honest_ne (by decide) (by decide)
  have waiting : batchView (front ++ id :: back) id = .waiting :=
    if_pos (by simp)
  refine Discipline.wp_seq
    (conduct_deadLetterFields (fetchedLasts.and lasting)
      ⟨stands, fetched, framed⟩ (fun _ held => held.1.delivered) ?_) ?_ ?_
  · intro reached held
    rw [waiting]
    exact .unreadable ⟨fields, error, held.1.entry, failed⟩ different
  · intro _ after reached
    obtain ⟨⟨left, _, frameHere⟩, retired⟩ := reached
    have retiredLasts : Lasting fun state => state.Retired id ∧ frame state := by
      intro before later grows held
      exact ⟨grows.retired id held.1, lasting before later grows held.2⟩
    refine Discipline.wp_seq
      (wp_note retiredLasts ⟨left, retired, frameHere⟩ ?_) ?_ ?_
    · intro before _ known
      exact .retired known.2.1
    · intro _ later noted
      simp only [NotePost, moves_finished, Function.update_idem,
        update_batchView nodup] at noted
      exact rest later noted.1 noted.2.2
    · intro raisedError later impossible
      cases impossible
  · intro raisedError after _
    exact raised raisedError after

theorem conduct_parseEntries {deliveryCounts : MsgId → Nat}
    {entries : List (MsgId × Dict)} {front : List Nat}
    (nodup : (front ++ entries.map Prod.fst).Nodup)
    (stands : Stands task (batchView (front ++ entries.map Prod.fst)) ordinals
      state)
    (fetched : AllFetched ordinals deliveryCounts entries state) :
    (conduct world acks).wp task (parseEntries world deliveryCounts entries)
      (BatchLeft world task ordinals front) state := by
  induction entries generalizing front state with
  | nil => exact ⟨nodup, stands, fun msg member => by cases member⟩
  | cons entry rest inductionHypothesis =>
      obtain ⟨id, fields⟩ := entry
      have here := fetched id fields List.mem_cons_self
      have restFetched : AllFetched ordinals deliveryCounts rest state :=
        fun other otherFields member =>
          fetched other otherFields (List.mem_cons_of_mem _ member)
      rw [List.map_cons] at nodup stands
      simp only [parseEntries]
      split
      case h_1 error failed =>
        split
        case isFalse => exact trivial
        case isTrue =>
          have restNodup : (front ++ rest.map Prod.fst).Nodup :=
            (List.nodup_cons.mp (List.nodup_middle.mp nodup)).2
          refine conduct_unparseable nodup stands here failed
            (AllFetched.lasting ordinals deliveryCounts rest) restFetched
            (fun _ _ => trivial) ?_
          intro after left stillFetched
          exact inductionHypothesis restNodup left stillFetched
      case h_2 event parsed =>
        let msg : StreamMessage := ⟨id, event, deliveryCounts id, fields⟩
        have inHand : InHand world ordinals msg state :=
          ⟨here.entry, parsed, here.lower, here.upper, here.delivered⟩
        rw [List.append_cons] at nodup stands
        refine Discipline.wp_seq
          (conduct_carry (InHand.lasting world ordinals msg) inHand
            (inductionHypothesis nodup stands restFetched)) ?_ ?_
        · intro messages after reached
          obtain ⟨batch, stillInHand⟩ := reached
          have same : front ++ [id] ++ messages.map StreamMessage.msgId =
              front ++ (msg :: messages).map StreamMessage.msgId := by
            rw [List.map_cons, ← List.append_cons]
          refine ⟨?_, ?_, ?_⟩
          · rw [← same]
            exact batch.nodup
          · rw [← same]
            exact batch.stands
          · intro other member
            rcases List.mem_cons.mp member with rfl | inRest
            · exact stillInHand
            · exact batch.inHand other inRest
        · intro error after _
          exact trivial

theorem decodeEntries_ids {ids : List MsgId} {entries : List (MsgId × Dict)}
    (decoded : state.decodeEntries ids = some entries) :
    entries.map Prod.fst = ids := by
  induction ids generalizing entries with
  | nil =>
      cases decoded
      rfl
  | cons first rest inductionHypothesis =>
      simp only [State.decodeEntries] at decoded
      split at decoded
      case h_1 firstFields later _ laterEq =>
        cases decoded
        rw [List.map_cons, inductionHypothesis laterEq]
      case h_2 => cases decoded

/-- What a delivery leaves in the hands of a resting task. -/
theorem stands_handOut {group : Group} {ids : List MsgId}
    (nodup : ids.Nodup) (resting : Resting state task) :
    Stands task (batchView ids)
      (fun id =>
        if id ∈ ids then deliveries state.history id + 1
        else lastOrdinal task id state.history)
      (state.handOut task group ids) := by
  constructor
  · intro id
    rw [State.handOut, State.deliver, phase_deliver, resting id]
    simp [batchView]
  · intro id
    rw [State.handOut, State.deliver, lastOrdinal_deliver nodup]
    simp

/-- What a round begins with. -/
def Rested (task : Tid) (state : State) : Prop :=
  ∃ ordinals, Stands task (batchView []) ordinals state

theorem rested_iff_resting : Rested task state ↔ Resting state task := by
  constructor
  · rintro ⟨ordinals, stands⟩ id
    rw [stands.phase id, batchView_nil]
  · intro resting
    refine ⟨fun id => lastOrdinal task id state.history, ?_, fun _ => rfl⟩
    intro id
    rw [resting id, batchView_nil]

theorem Resting.stable :
    (conduct world acks).Stable task fun state => Resting state task := by
  intro before after others _ resting
  obtain ⟨ordinals, stands⟩ := rested_iff_resting.mpr resting
  exact rested_iff_resting.mp ⟨ordinals, stands.others others⟩

def BatchTaken (world : World) (task : Tid) :
    Except PyException (List StreamMessage) → State → Prop
  | .ok messages, state => ∃ ordinals,
      Batch world task ordinals [] messages state
  | .error _, _ => True

theorem conduct_parseBatch {deliveryCounts : MsgId → Nat}
    {entries : List (MsgId × Dict)} (nodup : (entries.map Prod.fst).Nodup)
    (stands : Stands task (batchView (entries.map Prod.fst)) ordinals state)
    (fetched : AllFetched ordinals deliveryCounts entries state) :
    (conduct world acks).wp task (parseEntries world deliveryCounts entries)
      (BatchTaken world task) state := by
  have parsed : (conduct world acks).wp task
      (parseEntries world deliveryCounts entries)
      (BatchLeft world task ordinals []) state :=
    conduct_parseEntries nodup stands fetched
  refine Discipline.wp_mono ?_ parsed
  intro outcome later left
  cases outcome with
  | ok messages => exact ⟨ordinals, left⟩
  | error error => exact trivial

theorem conduct_read {name : Nat} (mine : task = .consume name)
    (resting : Resting state task) :
    (conduct world acks).wp task (read world) (BatchTaken world task)
      state := by
  have entriesRead : (conduct world acks).wp task
      (xreadgroup world.settings.batchSize)
      (fun outcome after =>
        match outcome with
        | .ok entries => (entries.map Prod.fst).Nodup ∧ ∃ ordinals,
            Stands task (batchView (entries.map Prod.fst)) ordinals after ∧
              AllFetched ordinals (fun _ => 1) entries after
        | .error _ => True)
      state := by
    refine wp_ask Resting.stable resting ?_
    intro before choice reply after counted idle _ taken
    have owes : Conduct world acks before task
        (.xreadgroup world.settings.batchSize) :=
      ⟨⟨name, mine⟩, idle⟩
    refine ⟨conduct_guarantee counted owes taken, ?_⟩
    cases reply with
    | error error => exact trivial
    | ok entries =>
        rcases exec_xreadgroup taken with
          ⟨_, error, failed⟩ | ⟨group, found, reached, decoded⟩
        · cases failed
        · have ids := decodeEntries_ids (decoded entries rfl)
          have nodup := Group.unread_nodup group before.redis.stream
            (some world.settings.batchSize.toNat)
          simp only [ids]
          refine ⟨nodup, _, by rw [reached]; exact stands_handOut nodup idle, ?_⟩
          intro id fields member
          obtain ⟨inIds, entry⟩ :=
            mem_decodeEntries (decoded entries rfl) id fields member
          have fresh : deliveries before.history id = 0 := by
            apply counted.fresh
            rintro ⟨current, same, below⟩
            rw [found] at same
            cases same
            have bound := (Group.mem_unread inIds).1
            omega
          have delivered : deliveries after.history id = 1 := by
            rw [reached, deliveries_handOut nodup, fresh, if_pos inIds]
          exact {
            entry := (exec_grows taken).entryFields entry
            lower := by
              right
              rw [if_pos inIds, fresh]
            upper := by rw [delivered]
            delivered := by rw [delivered] }
  refine Discipline.wp_seq entriesRead ?_ ?_
  · intro entries after reached
    obtain ⟨nodup, ordinals, stands, fetched⟩ := reached
    split
    case isTrue empty =>
      rw [List.isEmpty_iff.mp empty] at stands
      exact ⟨ordinals, List.nodup_nil, stands, fun msg member => by
        cases member⟩
    case isFalse =>
      exact conduct_parseBatch nodup stands fetched
  · intro error after _
    exact trivial

/-! ## Claiming -/

/-- A count that was looked up for a message in hand. -/
structure LookedUp (ordinals : Nat → Nat) (id count : Nat) (state : State) :
    Prop where
  lower : state.Retired id ∨ ordinals id ≤ count
  upper : count ≤ deliveries state.history id

/-- What a claim leaves in the hands of its task, before the counts are
looked up. -/
structure Claimed (ordinals : Nat → Nat) (id : Nat) (fields : Dict)
    (state : State) : Prop where
  entry : state.entryFields id = some fields
  ordinal : ordinals id ≤ deliveries state.history id
  delivered : 1 ≤ deliveries state.history id

theorem LookedUp.lasting (ordinals : Nat → Nat) (id count : Nat) :
    Lasting (LookedUp ordinals id count) := by
  intro before after grows lookedUp
  exact {
    lower := lookedUp.lower.imp_left (grows.retired id)
    upper := Nat.le_trans lookedUp.upper (grows.deliveries_le id) }

theorem Claimed.lasting (ordinals : Nat → Nat) (id : Nat) (fields : Dict) :
    Lasting (Claimed ordinals id fields) := by
  intro before after grows claimed
  exact {
    entry := grows.entryFields claimed.entry
    ordinal := Nat.le_trans claimed.ordinal (grows.deliveries_le id)
    delivered := Nat.le_trans claimed.delivered (grows.deliveries_le id) }

/-- What XPENDING says of a claimed message is at least the ordinal of its
delivery, unless the message has been retired since. -/
theorem lookedUp_headD {ordinals : Nat → Nat} {id : Nat} {fields : Dict}
    {group : Group} (counted : Counted state)
    (found : state.redis.group = some group)
    (claimed : Claimed ordinals id fields state) :
    LookedUp ordinals id ((group.timesDelivered? id).toList.headD 1) state := by
  cases times : group.timesDelivered? id with
  | none =>
      have handedOut := handedOut_of_delivered counted claimed.delivered
      refine ⟨Or.inl ⟨handedOut, ?_⟩, claimed.delivered⟩
      rintro ⟨current, same, pending⟩
      rw [found] at same
      cases same
      exact Group.timesDelivered?_eq_none times pending
  | some count =>
      obtain ⟨entry, member, sameId, sameCount⟩ :=
        Group.timesDelivered?_eq_some times
      have agrees := counted.exact group found entry member
      rw [sameId, sameCount] at agrees
      refine ⟨Or.inr ?_, ?_⟩
      · change ordinals id ≤ count
        rw [agrees]
        exact claimed.ordinal
      · change count ≤ deliveries state.history id
        rw [agrees]

theorem conduct_deliveryCount {view : Nat → Phase} {id : Nat} {fields : Dict}
    (stands : Stands task view ordinals state)
    (claimed : Claimed ordinals id fields state) :
    (conduct world acks).wp task (deliveryCount id)
      (fun outcome after =>
        match outcome with
        | .ok count =>
            Stands task view ordinals after ∧ LookedUp ordinals id count after
        | .error _ => True)
      state := by
  have asked : (conduct world acks).wp task (xpendingRange id)
      (fun outcome after =>
        match outcome with
        | .ok counts => Stands task view ordinals after ∧
            LookedUp ordinals id (counts.headD 1) after
        | .error _ => True)
      state := by
    refine wp_knowing (Claimed.lasting ordinals id fields)
      ⟨stands, claimed⟩ rfl (fun _ _ _ => trivial) ?_
    intro before choice reply after counted known _ taken left
    cases reply with
    | error error => exact trivial
    | ok counts =>
        obtain ⟨same, answered⟩ := exec_xpendingRange taken
        obtain ⟨group, found, rfl⟩ := answered counts rfl
        refine ⟨left.1, ?_⟩
        rw [same]
        exact lookedUp_headD counted found known.2
  refine Discipline.wp_seq asked ?_ ?_
  · intro counts after reached
    exact reached
  · intro error after _
    exact trivial

/-- Each claimed message gets a count of its own. -/
theorem conduct_lookUpCounts {view : Nat → Phase} {deliveryCounts : MsgId → Nat}
    {entries remaining : List (MsgId × Dict)}
    (within : ∀ entry ∈ remaining, entry ∈ entries)
    (stands : Stands task view ordinals state)
    (claimed : ∀ id fields, (id, fields) ∈ entries →
      Claimed ordinals id fields state)
    (done : ∀ id fields, (id, fields) ∈ entries →
      (id, fields) ∈ remaining ∨
        LookedUp ordinals id (deliveryCounts id) state) :
    (conduct world acks).wp task (lookUpCounts deliveryCounts remaining)
      (fun outcome after =>
        match outcome with
        | .ok counts => Stands task view ordinals after ∧
            AllFetched ordinals counts entries after
        | .error _ => True)
      state := by
  induction remaining generalizing deliveryCounts state with
  | nil =>
      refine ⟨stands, ?_⟩
      intro id fields member
      have claim := claimed id fields member
      rcases done id fields member with absent | lookedUp
      · cases absent
      · exact ⟨claim.entry, lookedUp.lower, lookedUp.upper, claim.delivered⟩
  | cons entry rest inductionHypothesis =>
      obtain ⟨id, fields⟩ := entry
      have claim := claimed id fields (within _ List.mem_cons_self)
      let known (reached : State) : Prop :=
        ∀ other otherFields, (other, otherFields) ∈ entries →
          Claimed ordinals other otherFields reached ∧
            ((other, otherFields) ∈ (id, fields) :: rest ∨
              LookedUp ordinals other (deliveryCounts other) reached)
      have lasting : Lasting known := by
        intro before after grows held other otherFields member
        obtain ⟨claimedHere, doneHere⟩ := held other otherFields member
        exact ⟨Claimed.lasting _ _ _ before after grows claimedHere,
          doneHere.imp_right (LookedUp.lasting _ _ _ before after grows)⟩
      have current : known state := fun other otherFields member =>
        ⟨claimed other otherFields member, done other otherFields member⟩
      refine Discipline.wp_seq
        (conduct_carry lasting current (conduct_deliveryCount stands claim))
        ?_ ?_
      · intro count after reached
        obtain ⟨⟨left, lookedUp⟩, held⟩ := reached
        refine inductionHypothesis
          (fun other member => within other (List.mem_cons_of_mem _ member))
          left (fun other otherFields member =>
            (held other otherFields member).1) ?_
        intro other otherFields member
        by_cases same : other = id
        · right
          rw [same, Function.update_self]
          exact lookedUp
        · rw [Function.update_of_ne same]
          rcases (held other otherFields member).2 with waiting | earlier
          · left
            rcases List.mem_cons.mp waiting with equal | inRest
            · cases equal
              exact absurd rfl same
            · exact inRest
          · exact Or.inr earlier
      · intro error after _
        exact trivial

theorem conduct_claimStale {name : Nat} (mine : task = .reclaim name)
    (minIdleMs : Int) (resting : Resting state task) :
    (conduct world acks).wp task (claimStale world minIdleMs)
      (BatchTaken world task) state := by
  have entriesClaimed : (conduct world acks).wp task
      (xautoclaim minIdleMs 0 world.settings.batchSize)
      (fun outcome after =>
        match outcome with
        | .ok reply => (reply.claimed.map Prod.fst).Nodup ∧ ∃ ordinals,
            Stands task (batchView (reply.claimed.map Prod.fst)) ordinals
                after ∧
              ∀ id fields, (id, fields) ∈ reply.claimed →
                Claimed ordinals id fields after
        | .error _ => True)
      state := by
    refine wp_ask Resting.stable resting ?_
    intro before choice reply after counted idle _ taken
    have owes : Conduct world acks before task
        (.xautoclaim minIdleMs 0 world.settings.batchSize) :=
      ⟨⟨name, mine⟩, idle⟩
    refine ⟨conduct_guarantee counted owes taken, ?_⟩
    cases reply with
    | error error => exact trivial
    | ok answer =>
        rcases exec_xautoclaim taken with
          ⟨_, error, failed⟩ | ⟨group, found, reached, decoded⟩
        · cases failed
        · have ids := decodeEntries_ids (decoded answer rfl)
          have nodup : (group.claimScan before.redis.stream before.redis.now
              minIdleMs.toNat 0 world.settings.batchSize.toNat).claimed.Nodup :=
            Group.claimed_nodup
          simp only [ids]
          refine ⟨nodup, _, by rw [reached]; exact stands_handOut nodup idle, ?_⟩
          intro id fields member
          obtain ⟨inIds, entry⟩ :=
            mem_decodeEntries (decoded answer rfl) id fields member
          have delivered : deliveries after.history id =
              deliveries before.history id + 1 := by
            rw [reached, deliveries_handOut nodup, if_pos inIds]
          exact {
            entry := (exec_grows taken).entryFields entry
            ordinal := by rw [if_pos inIds, delivered]
            delivered := by omega }
  refine Discipline.wp_seq entriesClaimed ?_ ?_
  · intro reply after reached
    obtain ⟨nodup, ordinals, stands, claimed⟩ := reached
    split
    case isTrue empty =>
      rw [List.isEmpty_iff.mp empty] at stands
      exact ⟨ordinals, List.nodup_nil, stands, fun msg member => by
        cases member⟩
    case isFalse =>
      refine Discipline.wp_seq
        (conduct_lookUpCounts (fun _ member => member) stands claimed
          fun id fields member => Or.inl member) ?_ ?_
      · intro counts later counted
        exact conduct_parseBatch nodup counted.1 counted.2
      · intro error later _
        exact trivial
  · intro error after _
    exact trivial

/-! ## The rounds -/

/-- The task is at rest again. -/
def RestsAgain (task : Tid) : Except PyException Unit → State → Prop
  | .ok (), state => Resting state task
  | .error _, _ => True

theorem conduct_handleAll {messages : List StreamMessage}
    (batch : Batch world task ordinals [] messages state) :
    (conduct world acks).wp task (Prog.forEach messages (handle world))
      (RestsAgain task) state := by
  refine Discipline.wp_forEach ?_ ?_ messages batch
  · intro msg rest reached held
    have msgInHand := held.inHand msg List.mem_cons_self
    have nodup := held.nodup
    have waiting :
        batchView (([] : List Nat) ++ (msg :: rest).map StreamMessage.msgId)
          msg.msgId = .waiting :=
      if_pos (by simp)
    have restLasts : Lasting fun state =>
        ∀ other ∈ rest, InHand world ordinals other state := by
      intro before after grows all other member
      exact InHand.lasting world ordinals other before after grows
        (all other member)
    refine Discipline.wp_mono ?_
      (conduct_carry restLasts
        (fun other member => held.inHand other (List.mem_cons_of_mem _ member))
        (conduct_handle ⟨held.stands, msgInHand⟩ waiting))
    intro outcome after done
    cases outcome with
    | error error => exact trivial
    | ok value =>
        obtain ⟨stands, inHand⟩ := done
        rw [List.map_cons, update_batchView nodup] at stands
        have restNodup :=
          (List.nodup_cons.mp (List.nodup_middle.mp nodup)).2
        exact ⟨restNodup, stands, inHand⟩
  · intro after left
    exact rested_iff_resting.mp ⟨ordinals, left.stands⟩

theorem conduct_consumeRound {name : Nat} (mine : task = .consume name)
    (resting : Resting state task) :
    (conduct world acks).wp task (consumeRound world) (RestsAgain task)
      state := by
  refine Discipline.wp_seq (conduct_read mine resting) ?_ ?_
  · intro messages after taken
    obtain ⟨ordinals, batch⟩ := taken
    exact conduct_handleAll batch
  · intro error after _
    exact trivial

theorem conduct_reclaimRound {name : Nat} (mine : task = .reclaim name)
    (resting : Resting state task) :
    (conduct world acks).wp task (reclaimRound world) (RestsAgain task)
      state := by
  obtain ⟨ordinals, stands⟩ := rested_iff_resting.mpr resting
  have slept : (conduct world acks).wp task
      (App.sleep (.finite world.settings.reclaimIntervalS))
      (Calm (Knows task (batchView []) ordinals fun _ => True)) state :=
    wp_plain trivial (Lasting.const True) ⟨stands, trivial⟩
  refine Discipline.wp_seq slept ?_ ?_
  · intro _ after kept
    have idle := rested_iff_resting.mp ⟨ordinals, kept.1⟩
    refine Discipline.wp_seq
      (conduct_claimStale mine world.settings.minIdleMs idle) ?_ ?_
    · intro messages later taken
      obtain ⟨laterOrdinals, batch⟩ := taken
      exact conduct_handleAll batch
    · intro error later _
      exact trivial
  · intro error after _
    exact trivial

end Batches

end TxnEvents
