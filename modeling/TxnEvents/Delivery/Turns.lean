import TxnEvents.Delivery.Conduct
import TxnEvents.Services.Work

/-!
# Handling one delivery respects the conduct

`handle` takes a waiting message through its phases: it starts processing,
ends it, dead-letters only with an excuse, and lets go of the message when it
is retired or may be tried again.
-/

namespace TxnEvents

open Effects Arith Python Streams App

/-! ## Plain programs -/

theorem Command.Works.plain {command : Command} (works : command.Works) :
    command.Plain := by
  cases command with
  | inc counter =>
      cases counter with
      | eventsFailed kind => exact works.elim
      | _ => exact trivial
  | observe note =>
      cases note with
      | insertReturned id inserted => exact trivial
      | _ => exact works.elim
  | _ => first | exact trivial | exact works.elim

/-- Processing moves no phase. -/
theorem uses_process (world : World) (event : TransactionEvent) :
    (process world event).Uses Command.Plain :=
  (works_process world event).mono fun _ works => works.plain

theorem uses_select {allowed : Command → Prop} (maySelect : allowed .select) :
    (select.tryExcept reraiseClassified).Uses allowed :=
  Prog.Uses.tryExcept (Prog.Uses.perform maySelect) uses_reraiseClassified

/-- The commands with which requests are answered. -/
def Command.Routes : Command → Prop
  | xadd _ _ => True
  | select => True
  | utcNow => True
  | inc .eventsPublished => True
  | _ => False

theorem Command.Routes.plain {command : Command} (routes : command.Routes) :
    command.Plain := by
  cases command with
  | xadd fields maxlen => exact trivial
  | select => exact trivial
  | utcNow => exact trivial
  | inc counter =>
      cases counter with
      | eventsPublished => exact trivial
      | _ => cases routes
  | _ => cases routes

theorem uses_route (world : World) (request : Request) :
    (route world request).Uses Command.Routes := by
  cases request with
  | ingest body =>
      refine Prog.Uses.bind ?_ fun _ => trivial
      refine Prog.Uses.bind ?_ ?_
      · exact Prog.Uses.bind (Prog.Uses.perform trivial) fun _ => trivial
      · intro receivedAt
        refine Prog.Uses.bind ?_ ?_
        · refine Prog.Uses.tryExcept (Prog.Uses.perform trivial) ?_
          intro error
          split
          · exact trivial
          · exact trivial
        · intro streamId
          exact Prog.Uses.bind (Prog.Uses.perform trivial) fun _ => trivial
  | summary userId =>
      refine Prog.Uses.bind ?_ fun _ => trivial
      refine Prog.Uses.bind ?_ fun answer => Prog.Uses.ofExcept _
      exact Prog.Uses.bind (uses_select trivial) fun _ => trivial
  | transactions query =>
      refine Prog.Uses.bind ?_ fun _ => trivial
      refine Prog.Uses.bind ?_ ?_
      · refine Prog.Uses.bind (uses_select trivial) ?_
        intro rowsTable
        exact Prog.Uses.bind (uses_select trivial) fun _ => trivial
      · intro answer
        exact Prog.Uses.bind (Prog.Uses.ofExcept _) fun _ => trivial

theorem uses_serve_of {allowed : Command → Prop}
    (routes : ∀ command : Command, command.Routes → allowed command)
    (mayAnswer : ∀ request response,
      allowed (.observe (.answered request response)))
    (world : World) (request : Request) :
    (serve world request).Uses allowed := by
  have routed : (route world request).Uses allowed :=
    (uses_route world request).mono routes
  refine Prog.Uses.bind (Prog.Uses.attempt ?_)
    fun response => Prog.Uses.perform (mayAnswer request _)
  refine Prog.Uses.tryExcept routed ?_
  intro error
  unfold databaseUnavailableHandler
  split
  · exact trivial
  · exact trivial

theorem uses_serve (world : World) (request : Request) :
    (serve world request).Uses Command.Plain :=
  uses_serve_of (fun _ => Command.Routes.plain) (fun _ _ => trivial) world
    request

/-! ## Views -/

/-- These messages wait and nothing else is in hand. -/
def batchView (ids : List Nat) : Nat → Phase :=
  fun id => if id ∈ ids then .waiting else .idle

theorem batchView_nil : batchView [] = fun _ => .idle := by
  funext id
  simp [batchView]

/-- Letting go of one message of a batch. -/
theorem update_batchView {front back : List Nat} {id : Nat}
    (nodup : (front ++ id :: back).Nodup) :
    Function.update (batchView (front ++ id :: back)) id .idle =
      batchView (front ++ back) := by
  have absent : id ∉ front ++ back :=
    (List.nodup_cons.mp (List.nodup_middle.mp nodup)).1
  funext other
  by_cases same : other = id
  · rw [same, Function.update_self, batchView, if_neg absent]
  · rw [Function.update_of_ne same]
    simp [batchView, same]

section Moves

variable (view : Nat → Phase) (id : Nat)

theorem moves_processStarted (count : Nat) :
    (fun other => (Note.processStarted id count).moves other (view other)) =
      Function.update view id (.started count) := by
  funext other
  by_cases same : other = id
  · rw [same, Function.update_self, Note.moves, if_pos rfl]
  · rw [Function.update_of_ne same, Note.moves, if_neg (Ne.symm same)]

theorem moves_processEnded (ended : Except PyException Outcome) :
    (fun other => (Note.processEnded id ended).moves other (view other)) =
      Function.update view id (.tried (view id).count ended) := by
  funext other
  by_cases same : other = id
  · rw [same, Function.update_self, Note.moves, if_pos rfl]
  · rw [Function.update_of_ne same, Note.moves, if_neg (Ne.symm same)]

theorem moves_deadLettering (reason : String) :
    (fun other => (Note.deadLettering id reason).moves other (view other)) =
      Function.update view id (.leaving reason) := by
  funext other
  by_cases same : other = id
  · rw [same, Function.update_self, Note.moves, if_pos rfl]
  · rw [Function.update_of_ne same, Note.moves, if_neg (Ne.symm same)]

theorem moves_finished :
    (fun other => (Note.finished id).moves other (view other)) =
      Function.update view id .idle := by
  funext other
  by_cases same : other = id
  · rw [same, Function.update_self, Note.moves, if_pos rfl]
  · rw [Function.update_of_ne same, Note.moves, if_neg (Ne.symm same)]

end Moves

/-! ## Letting go of a message -/

theorem handedOut_of_delivered {state : State} {id : Nat}
    (counted : Counted state) (delivered : 1 ≤ deliveries state.history id) :
    state.HandedOut id := by
  by_contra notHandedOut
  have none := counted.fresh id notHandedOut
  omega

theorem retired_xack {state : State} {id : Nat}
    (handedOut : state.HandedOut id) : (Redis.xack state id).2.Retired id := by
  refine ⟨(grows_xack state id).handedOut id handedOut, ?_⟩
  rintro ⟨current, found, pending⟩
  obtain ⟨group, _, rfl⟩ := Option.map_eq_some_iff.mp found
  exact ((Group.pending_ack_iff _ _ _).mp pending).2 rfl

section Handle

variable {world : World} {acks : Prop} {task : Tid} {view : Nat → Phase}
  {ordinals : Nat → Nat} {holds : State → Prop} {state : State}

theorem conduct_xack {id : Nat} (lasting : Lasting holds)
    (knows : Knows task view ordinals holds state)
    (delivered : ∀ state, holds state → 1 ≤ deliveries state.history id) :
    (conduct world acks).wp task (xack id)
      (fun outcome after =>
        Knows task view ordinals holds after ∧
          match outcome with
          | .ok () => after.Retired id
          | .error error => error.cls.isOwn = false ∧ ¬ acks)
      state := by
  refine wp_knowing lasting knows rfl (fun _ _ _ => trivial) ?_
  intro before choice reply after counted known permitted taken left
  refine ⟨left, ?_⟩
  cases reply with
  | ok value =>
      have handedOut :=
        handedOut_of_delivered counted (delivered before known.2)
      rw [(settle_ok taken).2]
      exact retired_xack handedOut
  | error error =>
      refine ⟨error_foreign taken, ?_⟩
      intro succeed
      have fate : choice.fate = .ok := permitted succeed
      simp only [exec, fate] at taken
      cases taken

theorem conduct_deadLetterFields {id : Nat} {fields : Dict} {reason : String}
    (lasting : Lasting holds) (knows : Knows task view ordinals holds state)
    (delivered : ∀ state, holds state → 1 ≤ deliveries state.history id)
    (excused : ∀ state, holds state →
      Excused world acks state id reason (view id)) :
    (conduct world acks).wp task (deadLetterFields id fields reason)
      (fun outcome after =>
        match outcome with
        | .ok () =>
            Knows task (Function.update view id (.leaving reason)) ordinals
                holds after ∧
              after.Retired id
        | .error _ => True)
      state := by
  have noted : (conduct world acks).wp task
      (App.observe (.deadLettering id reason))
      (NotePost task view ordinals holds (.deadLettering id reason)) state := by
    refine wp_note lasting knows ?_
    intro before _ known
    change Excused world acks before id reason (phase before.history task id)
    rw [known.1.phase id]
    exact excused before known.2
  refine Discipline.wp_seq noted ?_ ?_
  · intro _ after left
    simp only [NotePost, moves_deadLettering] at left
    have written : (conduct world acks).wp task
        (xaddDlq id (fields.set "reason" reason))
        (fun outcome later =>
          match outcome with
          | .ok () =>
              Knows task (Function.update view id (.leaving reason)) ordinals
                holds later
          | .error _ => True)
        after := by
      refine wp_knowing lasting left rfl ?_ ?_
      · intro before _ known
        refine ⟨reason, fields, ?_, rfl⟩
        rw [known.1.phase id, Function.update_self]
      · intro before choice reply later _ _ _ _ kept
        cases reply with
        | ok value => exact kept
        | error error => exact trivial
    refine Discipline.wp_seq written ?_ ?_
    · intro _ later kept
      refine Discipline.wp_mono ?_ (conduct_xack lasting kept delivered)
      intro outcome last acked
      cases outcome with
      | ok value => exact acked
      | error error => exact trivial
    · intro error later _
      exact trivial
  · intro error after impossible
    exact trivial

/-! ## One delivery -/

/-- What is known of a message in hand. -/
structure InHand (world : World) (ordinals : Nat → Nat) (msg : StreamMessage)
    (state : State) : Prop where
  entry : state.entryFields msg.msgId = some msg.rawFields
  parsed : parseFields world.unicode world.json msg.rawFields = .ok msg.event
  lower : state.Retired msg.msgId ∨ ordinals msg.msgId ≤ msg.deliveryCount
  upper : msg.deliveryCount ≤ deliveries state.history msg.msgId
  delivered : 1 ≤ deliveries state.history msg.msgId

theorem InHand.lasting (world : World) (ordinals : Nat → Nat)
    (msg : StreamMessage) : Lasting (InHand world ordinals msg) := by
  intro before after grows inHand
  exact {
    entry := grows.entryFields inHand.entry
    parsed := inHand.parsed
    lower := inHand.lower.imp_left (grows.retired msg.msgId)
    upper := Nat.le_trans inHand.upper (grows.deliveries_le msg.msgId)
    delivered := Nat.le_trans inHand.delivered (grows.deliveries_le msg.msgId) }

/-- The failure that `handle` reacts to: the one processing ended in, or that
of an acknowledgement after a success. -/
inductive Blamed (acks : Prop) (count : Nat) (error : PyException) :
    Phase → Prop
  | tried : Blamed acks count error (.tried count (.error error))
  | unacknowledged {outcome : Outcome} : ¬ acks → error.cls.isOwn = false →
      Blamed acks count error (.tried count (.ok outcome))

/-- The message may be let go. -/
def Settled (world : World) (task : Tid) (view : Nat → Phase)
    (ordinals : Nat → Nat) (id : Nat) : Except PyException Unit → State → Prop
  | .ok (), state => ∃ last,
      Stands task (Function.update view id last) ordinals state ∧
        Released world state id last
  | .error _, _ => True

variable {msg : StreamMessage}

theorem conduct_countFailure {kind : FailureKind} {id : Nat}
    (lasting : Lasting holds) (knows : Knows task view ordinals holds state)
    (doomed : Doomed (view id)) :
    (conduct world acks).wp task (App.inc (.eventsFailed kind))
      (fun outcome after =>
        match outcome with
        | .ok () => Knows task view ordinals holds after
        | .error _ => True)
      state := by
  refine wp_knowing lasting knows rfl ?_ ?_
  · intro before _ known
    refine ⟨id, ?_⟩
    rw [known.1.phase id]
    exact doomed
  · intro before choice reply after _ _ _ _ left
    cases reply with
    | ok value => exact left
    | error error => exact trivial

theorem conduct_giveUp {kind : FailureKind} {reason : String}
    (knows : Knows task view ordinals (InHand world ordinals msg) state)
    (excused : ∀ state,
      Excused world acks state msg.msgId reason (view msg.msgId)) :
    (conduct world acks).wp task
      ((deadLetter msg reason).bind fun _ => App.inc (.eventsFailed kind))
      (Settled world task view ordinals msg.msgId) state := by
  have lasting := InHand.lasting world ordinals msg
  refine Discipline.wp_seq
    (conduct_deadLetterFields lasting knows
      (fun _ inHand => inHand.delivered) fun state _ => excused state) ?_ ?_
  · intro _ after left
    have retiredLasts : Lasting fun state =>
        InHand world ordinals msg state ∧ state.Retired msg.msgId :=
      lasting.and fun _ _ grows retired => grows.retired _ retired
    have doomed : Doomed
        (Function.update view msg.msgId (.leaving reason) msg.msgId) := by
      rw [Function.update_self]
      exact .leaving
    refine Discipline.wp_mono ?_
      (conduct_countFailure retiredLasts ⟨left.1.1, left.1.2, left.2⟩ doomed)
    intro outcome later counted
    cases outcome with
    | ok value => exact ⟨_, counted.1, .retired counted.2.2⟩
    | error error => exact trivial
  · intro error after _
    exact trivial

theorem conduct_handleFailure {error : PyException}
    (knows : Knows task view ordinals (InHand world ordinals msg) state)
    (blamed : Blamed acks msg.deliveryCount error (view msg.msgId)) :
    (conduct world acks).wp task (handleFailure world msg error)
      (Settled world task view ordinals msg.msgId) state := by
  generalize current : view msg.msgId = reachedPhase at blamed
  unfold handleFailure
  split
  case isTrue permanent =>
    refine conduct_giveUp knows ?_
    intro reached
    rw [current]
    cases blamed with
    | tried => exact .permanent permanent rfl
    | unacknowledged failing foreign =>
        have never := ForeignException.not_permanent ⟨error, foreign⟩
        rw [never] at permanent
        cases permanent
  case isFalse notPermanent =>
    split
    case isTrue transient =>
      cases blamed with
      | unacknowledged failing foreign =>
          rw [not_transient_of_not_own foreign] at transient
          cases transient
      | tried =>
          split
          case isTrue exhausted =>
            refine conduct_giveUp knows ?_
            intro reached
            rw [current]
            exact .exhausted transient exhausted
          case isFalse remaining =>
            have doomed : Doomed (view msg.msgId) := by
              rw [current]
              exact .tried
            refine Discipline.wp_mono ?_ (conduct_countFailure
              (InHand.lasting world ordinals msg) knows doomed)
            intro outcome after counted
            cases outcome with
            | error error => exact trivial
            | ok value =>
                refine ⟨view msg.msgId, ?_, ?_⟩
                · rw [Function.update_eq_self]
                  exact counted.1
                · rw [current]
                  exact .transient transient (Nat.lt_of_not_le remaining)
    case isFalse notTransient =>
      have different : "unexpected error: " ++ error.text ≠ exhaustedReason :=
        honest_ne (by decide) (by decide)
      refine conduct_giveUp knows ?_
      intro reached
      rw [current]
      cases blamed with
      | tried => exact .unexpected different
      | unacknowledged failing foreign =>
          exact .unacknowledged failing different

/-- The body of the `try`: success leaves the message retired, and a failure
is blamed on what it came from. -/
def Attempted (world : World) (acks : Prop) (task : Tid) (view : Nat → Phase)
    (ordinals : Nat → Nat) (msg : StreamMessage) :
    Except PyException Unit → State → Prop
  | .ok (), state => Settled world task view ordinals msg.msgId (.ok ()) state
  | .error error, state => ∃ last,
      Knows task (Function.update view msg.msgId last) ordinals
          (InHand world ordinals msg) state ∧
        Blamed acks msg.deliveryCount error last

theorem conduct_processAndAck
    (knows : Knows task view ordinals (InHand world ordinals msg) state)
    (started : view msg.msgId = .started msg.deliveryCount) :
    (conduct world acks).wp task (processAndAck world msg)
      (Attempted world acks task view ordinals msg) state := by
  have lasting := InHand.lasting world ordinals msg
  have processed : (conduct world acks).wp task
      (process world msg.event).attempt
      (fun outcome after =>
        match outcome with
        | .ok _ => Knows task view ordinals (InHand world ordinals msg) after
        | .error _ => False)
      state :=
    Discipline.wp_attempt.mpr
      (wp_of_plain (uses_process world msg.event) lasting knows)
  refine Discipline.wp_seq processed ?_ ?_
  · intro ended after kept
    have noted : (conduct world acks).wp task
        (App.observe (.processEnded msg.msgId ended))
        (NotePost task view ordinals (InHand world ordinals msg)
          (.processEnded msg.msgId ended)) after := by
      refine wp_note lasting kept ?_
      intro before _ known
      refine ⟨msg.deliveryCount, ?_⟩
      rw [known.1.phase, started]
    refine Discipline.wp_seq noted ?_ ?_
    · intro _ later left
      simp only [NotePost, moves_processEnded, started, Phase.count] at left
      cases ended with
      | error error => exact ⟨_, left, .tried⟩
      | ok result =>
          change (conduct world acks).wp task
            ((xack msg.msgId).bind fun _ => App.inc (.eventsProcessed result))
            _ later
          refine Discipline.wp_seq
            (conduct_xack lasting left fun _ inHand => inHand.delivered) ?_ ?_
          · intro _ acked reached
            have retiredLasts : Lasting fun state =>
                InHand world ordinals msg state ∧ state.Retired msg.msgId :=
              lasting.and fun _ _ grows retired => grows.retired _ retired
            refine wp_knowing retiredLasts
              ⟨reached.1.1, reached.1.2, reached.2⟩ rfl
              (fun _ _ _ => trivial) ?_
            intro before choice reply last _ _ _ taken counted
            have replied : reply = .ok () := by
              cases taken
              rfl
            rw [replied]
            exact ⟨_, counted.1, .retired counted.2.2⟩
          · intro error acked reached
            exact ⟨_, reached.1, .unacknowledged reached.2.2 reached.2.1⟩
    · intro error later impossible
      cases impossible
  · intro error after impossible
    cases impossible

/-- Handling a waiting message puts it out of hand. -/
theorem conduct_handle
    (knows : Knows task view ordinals (InHand world ordinals msg) state)
    (waiting : view msg.msgId = .waiting) :
    (conduct world acks).wp task (handle world msg)
      (fun outcome after =>
        match outcome with
        | .ok () =>
            Stands task (Function.update view msg.msgId .idle) ordinals after
        | .error _ => True)
      state := by
  have lasting := InHand.lasting world ordinals msg
  have begun : (conduct world acks).wp task
      (App.observe (.processStarted msg.msgId msg.deliveryCount))
      (NotePost task view ordinals (InHand world ordinals msg)
        (.processStarted msg.msgId msg.deliveryCount)) state := by
    refine wp_note lasting knows ?_
    intro before _ known
    have inHand := known.2
    exact {
      waiting := by rw [known.1.phase, waiting]
      readable := ⟨msg.rawFields, msg.event, inHand.entry, inHand.parsed⟩
      lower := by
        rw [known.1.ordinal]
        exact inHand.lower
      upper := inHand.upper }
  refine Discipline.wp_seq begun ?_ ?_
  · intro _ after left
    simp only [NotePost, moves_processStarted] at left
    have settled : (conduct world acks).wp task
        ((processAndAck world msg).tryExcept (handleFailure world msg))
        (Settled world task view ordinals msg.msgId) after := by
      refine Discipline.wp_tryExcept
        (conduct_processAndAck left (Function.update_self _ _ _)) ?_ ?_
      · intro _ later done
        obtain ⟨last, stands, released⟩ := done
        rw [Function.update_idem] at stands
        exact ⟨last, stands, released⟩
      · intro error later failed
        obtain ⟨last, known, blamed⟩ := failed
        have blamedHere : Blamed acks msg.deliveryCount error
            (Function.update
              (Function.update view msg.msgId (.started msg.deliveryCount))
              msg.msgId last msg.msgId) := by
          rw [Function.update_self]
          exact blamed
        refine Discipline.wp_mono ?_ (conduct_handleFailure known blamedHere)
        intro outcome reached done
        cases outcome with
        | error error => exact trivial
        | ok value =>
            obtain ⟨final, stands, released⟩ := done
            rw [Function.update_idem, Function.update_idem] at stands
            exact ⟨final, stands, released⟩
    refine Discipline.wp_seq settled ?_ ?_
    · intro _ later done
      obtain ⟨last, stands, released⟩ := done
      have releasedLasts : Lasting fun state =>
          Released world state msg.msgId last := by
        intro before reached grows held
        cases held with
        | retired retired => exact .retired (grows.retired _ retired)
        | transient transient below => exact .transient transient below
      have finished : (conduct world acks).wp task
          (App.observe (.finished msg.msgId))
          (NotePost task (Function.update view msg.msgId last) ordinals
            (fun state => Released world state msg.msgId last)
            (.finished msg.msgId)) later := by
        refine wp_note releasedLasts ⟨stands, released⟩ ?_
        intro before _ known
        change Released world before msg.msgId
          (phase before.history task msg.msgId)
        rw [known.1.phase, Function.update_self]
        exact known.2
      refine Discipline.wp_mono ?_ finished
      intro outcome reached noted
      cases outcome with
      | error error => exact trivial
      | ok value =>
          simp only [NotePost, moves_finished, Function.update_idem] at noted
          exact noted.1
    · intro error later _
      exact trivial
  · intro error after impossible
    exact trivial

end Handle

end TxnEvents
