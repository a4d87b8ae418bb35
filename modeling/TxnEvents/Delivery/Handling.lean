import TxnEvents.Ledger.Processing

/-!
# The loops keep the invariant

Every program of the system is right under the safety discipline, so the
safety invariant holds in every reachable state.
-/

namespace TxnEvents

open Effects Arith Python App

/-! ## Dead-lettering -/

section DeadLetters

variable {spare : Prop} {world : World} {task : Tid} {state : State}

/-- The entry may be dead-lettered with this reason. -/
structure MayLetter (world : World) (id : Nat) (fields : Dict)
    (reason : String) (state : State) : Prop where
  entry : state.entryFields id = some fields
  exhausted : reason = exhaustedReason → Exhausted world state id

theorem MayLetter.lasting (world : World) (id : Nat) (fields : Dict)
    (reason : String) : Lasting (MayLetter world id fields reason) := by
  intro before after grows may
  exact ⟨grows.entryFields may.entry,
    fun same => (may.exhausted same).grow grows⟩

/-- The entry is dead-lettered and may be acknowledged. -/
def Written (id : Nat) (fields : Dict) (state : State) : Prop :=
  state.entryFields id = some fields ∧ DeadLettered state id fields

theorem Written.lasting (id : Nat) (fields : Dict) :
    Lasting (Written id fields) := by
  intro before after grows written
  exact ⟨grows.entryFields written.1, grows.deadLettered written.2⟩

theorem wp_xaddDlq {id : Nat} {fields : Dict} {reason : String}
    (may : MayLetter world id fields reason state) :
    (safety spare world).wp task (xaddDlq id (fields.set "reason" reason))
      (fun outcome after =>
        match outcome with
        | .ok () => Written id fields after
        | .error error => error.cls.isOwn = false)
      state := by
  refine wp_paying (MayLetter.lasting world id fields reason).stable may ?_ ?_
  · intro before choice _ held _
    exact ⟨fun _ => trivial, trivial, fields, reason, held.entry, rfl,
      held.exhausted⟩
  · intro before choice reply after _ held taken
    cases reply with
    | error error => exact error_foreign taken
    | ok value =>
        have entry := (exec_grows taken).entryFields held.entry
        refine ⟨entry, ⟨id, fields.set "reason" reason⟩, ?_, rfl, reason, rfl⟩
        rw [(settle_ok taken).2]
        exact List.mem_append_right _ (List.mem_singleton_self _)

/-- An entry that is accounted for may be acknowledged. -/
theorem wp_xack {id : Nat} (accounted : Accounted world state id) :
    (safety spare world).wp task (xack id) (Calm fun _ => True) state := by
  have lasting : Lasting fun state => Accounted world state id :=
    fun _ _ grows before => grows.accounted before
  refine wp_paying lasting.stable accounted ?_ ?_
  · intro before choice _ held _
    exact ⟨fun _ => held, trivial, trivial⟩
  · intro before choice reply after _ _ taken
    cases reply with
    | ok value => exact trivial
    | error error => exact ⟨trivial, error_foreign taken⟩

theorem wp_deadLetterFields {id : Nat} {fields : Dict} {reason : String}
    (may : MayLetter world id fields reason state) :
    (safety spare world).wp task (deadLetterFields id fields reason)
      (fun _ _ => True) state := by
  have lasting := MayLetter.lasting world id fields reason
  refine Discipline.wp_seq (wp_free trivial lasting may) ?_ ?_
  · intro _ noted held
    refine Discipline.wp_seq (wp_xaddDlq held) ?_ ?_
    · intro _ after written
      have accounted : Accounted world after id :=
        ⟨fields, written.1, Or.inl written.2⟩
      exact Discipline.wp_mono (fun _ _ _ => trivial) (wp_xack accounted)
    · intro error after _
      exact trivial
  · intro error noted _
    exact trivial

theorem honest_ne {start text : String}
    (different : start.toList.head? ≠ exhaustedReason.toList.head?)
    (nonempty : start.toList ≠ []) : start ++ text ≠ exhaustedReason :=
  append_ne_of_head_ne different nonempty

end DeadLetters

/-! ## One delivery -/

/-- The message is a parsed entry of the stream that has been delivered at
least as often as it says. -/
structure Carries (world : World) (msg : StreamMessage) (state : State) :
    Prop where
  entry : state.entryFields msg.msgId = some msg.rawFields
  delivered : ∃ task, .delivered task msg.msgId ∈ state.history
  parsed : parseFields world.unicode world.json msg.rawFields = .ok msg.event
  count : msg.deliveryCount ≤ deliveries state.history msg.msgId

theorem Carries.lasting (world : World) (msg : StreamMessage) :
    Lasting (Carries world msg) := by
  intro before after grows carries
  exact {
    entry := grows.entryFields carries.entry
    delivered := by
      obtain ⟨task, member⟩ := carries.delivered
      exact ⟨task, grows.delivered member⟩
    parsed := carries.parsed
    count := Nat.le_trans carries.count (grows.deliveries_le msg.msgId) }

theorem Carries.arrived {world : World} {msg : StreamMessage} {state : State}
    (carries : Carries world msg state) : Arrived world msg.event state :=
  ⟨msg.msgId, msg.rawFields, carries.entry, carries.delivered, carries.parsed⟩

/-- Processing the message has ended in this error. -/
def Failed (msg : StreamMessage) (error : PyException) (state : State) :
    Prop :=
  Honest error ∧
    (error.cls.isTransient = true →
      ∃ task, .noted task (.processEnded msg.msgId (.error error)) ∈
        state.history)

theorem Failed.lasting (msg : StreamMessage) (error : PyException) :
    Lasting (Failed msg error) := by
  intro before after grows failed
  refine ⟨failed.1, ?_⟩
  intro transient
  obtain ⟨task, member⟩ := failed.2 transient
  exact ⟨task, grows.history.subset member⟩

theorem not_transient_of_not_own {error : PyException}
    (foreign : error.cls.isOwn = false) : error.cls.isTransient = false :=
  ForeignException.not_transient ⟨error, foreign⟩

theorem failed_of_not_own {msg : StreamMessage} {error : PyException}
    {state : State} (foreign : error.cls.isOwn = false) :
    Failed msg error state := by
  refine ⟨honest_of_not_own foreign, ?_⟩
  intro transient
  rw [not_transient_of_not_own foreign] at transient
  cases transient

section Handle

variable {spare : Prop} {world : World} {task : Tid} {state : State} {msg : StreamMessage}

theorem wp_processAndAck (carries : Carries world msg state) :
    (safety spare world).wp task (processAndAck world msg)
      (fun outcome after =>
        match outcome with
        | .ok () => True
        | .error error => Failed msg error after)
      state := by
  have lasting := Carries.lasting world msg
  have processed : (safety spare world).wp task (process world msg.event).attempt
      (fun outcome after =>
        match outcome with
        | .ok ended =>
            ProcessPost msg.event ended after ∧ Carries world msg after
        | .error _ => False)
      state :=
    Discipline.wp_attempt.mpr
      (wp_carry lasting carries (wp_process carries.arrived))
  refine Discipline.wp_seq processed ?_ ?_
  · intro ended after reached
    cases ended with
    | ok result =>
        have noted : (safety spare world).wp task
            (App.observe (.processEnded msg.msgId (.ok result)))
            (Calm fun later =>
              InTable msg.event.id later ∧ Carries world msg later) after := by
          have both := (InTable.lasting msg.event.id).and lasting
          refine wp_ask_calm both.stable reached ?_
          intro before choice reply later safe held _ taken
          have owes : Owes spare world before task
              (.observe (.processEnded msg.msgId (.ok result))) :=
            ⟨fun _ => trivial, trivial, trivial⟩
          exact ⟨safety_guarantee safe owes taken,
            both before later (exec_grows taken) held⟩
        refine Discipline.wp_seq noted ?_ ?_
        · intro _ later held
          have accounted : Accounted world later msg.msgId :=
            ⟨msg.rawFields, held.2.entry,
              Or.inr ⟨msg.event, held.2.parsed, held.1⟩⟩
          change (safety spare world).wp task
            ((xack msg.msgId).bind fun _ => App.inc (.eventsProcessed result))
            _ later
          refine Discipline.wp_seq (wp_xack accounted) ?_ ?_
          · intro _ acked _
            refine Discipline.wp_mono ?_
              (wp_free trivial (Lasting.const True) trivial)
            intro outcome last calm
            cases outcome with
            | ok value => exact trivial
            | error error => exact failed_of_not_own calm.2
          · intro error acked calm
            exact failed_of_not_own calm.2
        · intro error later calm
          exact failed_of_not_own calm.2
    | error error =>
        have honest : Honest error := reached.1
        have noted : (safety spare world).wp task
            (App.observe (.processEnded msg.msgId (.error error)))
            (fun outcome later =>
              match outcome with
              | .ok () => Failed msg error later
              | .error raised => raised.cls.isOwn = false)
            after := by
          refine wp_paying (Lasting.const True).stable trivial ?_ ?_
          · intro before choice _ _ _
            exact ⟨fun _ => trivial, trivial, honest⟩
          · intro before choice reply later _ _ taken
            cases taken
            refine ⟨honest, ?_⟩
            intro _
            exact ⟨task, List.mem_cons_self⟩
        refine Discipline.wp_seq noted ?_ ?_
        · intro _ later failed
          exact failed
        · intro raised later foreign
          exact failed_of_not_own foreign
  · intro error after impossible
    cases impossible

theorem wp_deadLetter {reason : String} (carries : Carries world msg state)
    (exhausted : reason = exhaustedReason →
      Exhausted world state msg.msgId) :
    (safety spare world).wp task (deadLetter msg reason) (fun _ _ => True) state :=
  wp_deadLetterFields ⟨carries.entry, exhausted⟩

/-- Dead-letter, then count the failure. -/
theorem wp_deadLetter_inc {reason : String} (counter : Counter)
    (carries : Carries world msg state)
    (exhausted : reason = exhaustedReason →
      Exhausted world state msg.msgId) :
    (safety spare world).wp task
      ((deadLetter msg reason).bind fun _ => App.inc counter)
      (fun _ _ => True) state := by
  refine Discipline.wp_seq (wp_deadLetter carries exhausted) ?_ ?_
  · intro _ after _
    exact Discipline.wp_mono (fun _ _ _ => trivial)
      (wp_free trivial (Lasting.const True) trivial)
  · intro error after _
    exact trivial

theorem wp_handleFailure {error : PyException}
    (carries : Carries world msg state) (failed : Failed msg error state) :
    (safety spare world).wp task (handleFailure world msg error)
      (fun _ _ => True) state := by
  unfold handleFailure
  split
  case isTrue permanent =>
    refine wp_deadLetter_inc _ carries ?_
    intro same
    exact absurd same (failed.1 permanent)
  case isFalse notPermanent =>
    split
    case isTrue transient =>
      split
      case isTrue exhausted =>
        refine wp_deadLetter_inc _ carries ?_
        intro _
        obtain ⟨by_, member⟩ := failed.2 transient
        exact ⟨Nat.le_trans exhausted carries.count, by_, error, member,
          transient⟩
      case isFalse =>
        exact Discipline.wp_mono (fun _ _ _ => trivial)
          (wp_free trivial (Lasting.const True) trivial)
    case isFalse notTransient =>
      refine wp_deadLetter_inc _ carries ?_
      intro same
      exact absurd same (honest_ne (by decide) (by decide))

theorem wp_handle (carries : Carries world msg state) :
    (safety spare world).wp task (handle world msg) (fun _ _ => True) state := by
  have lasting := Carries.lasting world msg
  have started : (safety spare world).wp task
      (App.observe (.processStarted msg.msgId msg.deliveryCount))
      (Calm (Carries world msg)) state :=
    wp_free trivial lasting carries
  refine Discipline.wp_seq started ?_ ?_
  · intro _ after held
    have tried : (safety spare world).wp task
        ((processAndAck world msg).tryExcept (handleFailure world msg))
        (fun _ _ => True) after := by
      refine Discipline.wp_tryExcept
        (wp_carry lasting held (wp_processAndAck held)) ?_ ?_
      · intro _ later _
        exact trivial
      · intro error later failed
        exact wp_handleFailure failed.2 failed.1
    refine Discipline.wp_seq tried ?_ ?_
    · intro _ later _
      exact Discipline.wp_mono (fun _ _ _ => trivial)
        (wp_free trivial (Lasting.const True) trivial)
    · intro error later _
      exact trivial
  · intro error after _
    exact trivial

end Handle

end TxnEvents
