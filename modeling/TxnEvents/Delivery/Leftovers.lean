import TxnEvents.Delivery.Biography
import TxnEvents.Delivery.NoLoss

/-!
# Why a message is pending

The last delivery of a pending message tells why it is pending: a loop has the
message in hand, or has ended with an exception while it had, the worker was
killed since, or processing has failed for the time being below the delivery
limit.
-/

namespace TxnEvents

open Effects Streams App

/-! ## The last delivery -/

/-- The message was last delivered to the task, and this has happened
since. -/
structure LastDelivered (history : History) (id : MsgId) (task : Tid)
    (since : History) : Prop where
  split : ∃ earlier, history = since ++ .delivered task id :: earlier
  last : ∀ happening ∈ since, happening.isDelivery id = false

section LastDelivered

variable {history since : History} {id : MsgId} {task : Tid}

theorem LastDelivered.newest (history : History) (id : MsgId) (task : Tid) :
    LastDelivered (.delivered task id :: history) id task [] where
  split := ⟨history, rfl⟩
  last := by
    intro happening member
    cases member

theorem LastDelivered.cons {happening : Happening}
    (delivered : LastDelivered history id task since)
    (other : happening.isDelivery id = false) :
    LastDelivered (happening :: history) id task (happening :: since) where
  split := by
    rcases delivered.split with ⟨earlier, equality⟩
    exact ⟨earlier, by rw [equality, List.cons_append]⟩
  last := by
    intro later member
    rcases List.mem_cons.mp member with same | old
    · rw [same]
      exact other
    · exact delivered.last later old

/-- A biography leaves out only what is not about the message. -/
theorem LastDelivered.of_biography
    (delivered : LastDelivered (biography id history) id task since) :
    ∃ all, LastDelivered history id task all ∧
      ∀ happening ∈ since, happening ∈ all := by
  rcases delivered.split with ⟨earlier, equality⟩
  rcases List.filter_eq_append_iff.mp equality with
    ⟨newer, older, whole, newerFiltered, olderFiltered⟩
  rcases List.filter_eq_cons_iff.mp olderFiltered with
    ⟨passed, oldest, olderSplit, untouched, _, _⟩
  refine ⟨newer ++ passed, ⟨⟨oldest, ?_⟩, ?_⟩, ?_⟩
  · rw [whole, olderSplit, List.append_assoc]
  · intro happening member
    by_contra delivery
    rw [Bool.not_eq_false] at delivery
    have touches := Happening.touches_of_isDelivery delivery
    rcases List.mem_append.mp member with inNewer | inPassed
    · have inSince : happening ∈ since := by
        rw [← newerFiltered]
        exact List.mem_filter.mpr ⟨inNewer, touches⟩
      rw [delivered.last happening inSince] at delivery
      cases delivery
    · exact untouched happening inPassed touches
  · intro happening member
    rw [← newerFiltered] at member
    exact List.mem_append_left passed (List.mem_of_mem_filter member)

end LastDelivered

/-! ## What may have come of it -/

/-- The task has the message in hand, and what the phase tells has happened
since the delivery. -/
structure InHandSince (history since : History) (id : MsgId) (task : Tid) :
    Prop where
  held : phase history task id ≠ .idle
  started : ∀ count, phase history task id = .started count →
    .noted task (.processStarted id count) ∈ since
  tried : ∀ count ended, phase history task id = .tried count ended →
    .noted task (.processStarted id count) ∈ since ∧
      .noted task (.processEnded id ended) ∈ since

/-- The worker of the task was killed since. -/
def KilledSince (since : History) (task : Tid) : Prop :=
  ∃ name, task.process = .worker name ∧ .killed name ∈ since

/-- Processing was started below the delivery limit and has failed for the
time being. -/
def PutOff (world : World) (since : History) (id : MsgId) (task : Tid) :
    Prop :=
  ∃ count error, .noted task (.processStarted id count) ∈ since ∧
    .noted task (.processEnded id (.error error)) ∈ since ∧
      error.cls.isTransient = true ∧ count < world.settings.maxDeliveries

/-- Why the message is still pending after its delivery to the task. -/
inductive Left (world : World) (history since : History) (id : MsgId)
    (task : Tid) : Prop
  | inHand (held : InHandSince history since id task)
  | killed (gone : KilledSince since task)
  | putOff (failed : PutOff world since id task)

section Left

variable {world : World} {history since : History} {id : MsgId}
  {task actor : Tid}

theorem KilledSince.cons (gone : KilledSince since task)
    (happening : Happening) : KilledSince (happening :: since) task := by
  rcases gone with ⟨name, mine, member⟩
  exact ⟨name, mine, List.mem_cons_of_mem happening member⟩

theorem PutOff.cons (failed : PutOff world since id task)
    (happening : Happening) : PutOff world (happening :: since) id task := by
  rcases failed with ⟨count, error, started, ended, transient, below⟩
  exact ⟨count, error, List.mem_cons_of_mem happening started,
    List.mem_cons_of_mem happening ended, transient, below⟩

/-- What leaves the phase alone leaves the message in hand. -/
theorem InHandSince.cons {happening : Happening}
    (held : InHandSince history since id task)
    (same : phase (happening :: history) task id = phase history task id) :
    InHandSince (happening :: history) (happening :: since) id task where
  held := by
    rw [same]
    exact held.held
  started := by
    intro count current
    rw [same] at current
    exact List.mem_cons_of_mem happening (held.started count current)
  tried := by
    intro count ended current
    rw [same] at current
    rcases held.tried count ended current with ⟨started, ending⟩
    exact ⟨List.mem_cons_of_mem happening started,
      List.mem_cons_of_mem happening ending⟩

theorem InHandSince.delivered (history : History) (id : MsgId) (task : Tid) :
    InHandSince (.delivered task id :: history) [] id task := by
  have waiting : phase (.delivered task id :: history) task id = .waiting :=
    if_pos ⟨rfl, rfl⟩
  constructor
  · simp [waiting]
  · simp [waiting]
  · simp [waiting]

/-- What does not move the phase of the task changes nothing. -/
theorem Left.cons {happening : Happening}
    (left : Left world history since id task)
    (same : phase (happening :: history) task id = phase history task id) :
    Left world (happening :: history) (happening :: since) id task := by
  cases left with
  | inHand held => exact .inHand (held.cons same)
  | killed gone => exact .killed (gone.cons happening)
  | putOff failed => exact .putOff (failed.cons happening)

theorem Left.kill (name : Nat) (left : Left world history since id task) :
    Left world (.killed name :: history) (.killed name :: since) id task := by
  by_cases mine : task.process = .worker name
  · exact .killed ⟨name, mine, List.mem_cons_self⟩
  · exact left.cons (if_neg mine)

/-- A note that the task makes about a message it has in hand. -/
theorem InHandSince.noted {note : Note}
    (held : InHandSince history since id task)
    (stays : phase (.noted task note :: history) task id ≠ .idle)
    (ends : ∀ ended, note = .processEnded id ended →
      ∃ count, phase history task id = .started count)
    (concerns : note.concerns id = true) :
    InHandSince (.noted task note :: history) (.noted task note :: since) id
      task := by
  have moved : phase (.noted task note :: history) task id =
      note.moves id (phase history task id) := if_pos rfl
  cases note with
  | processStarted msgId told =>
      have same : msgId = id := of_decide_eq_true concerns
      rw [same] at moved ⊢
      rw [Note.moves, if_pos rfl] at moved
      constructor
      · simp [moved]
      · intro count current
        rw [moved] at current
        cases current
        exact List.mem_cons_self
      · simp [moved]
  | processEnded msgId outcome =>
      have same : msgId = id := of_decide_eq_true concerns
      rw [same] at moved ends ⊢
      rcases ends outcome rfl with ⟨begun, started⟩
      rw [Note.moves, if_pos rfl, started, Phase.count] at moved
      constructor
      · simp [moved]
      · simp [moved]
      · intro count ended current
        rw [moved] at current
        cases current
        exact ⟨List.mem_cons_of_mem _ (held.started begun started),
          List.mem_cons_self⟩
  | deadLettering msgId reason =>
      rw [Note.moves, if_pos (of_decide_eq_true concerns)] at moved
      constructor
      · simp [moved]
      · simp [moved]
      · simp [moved]
  | finished msgId =>
      rw [Note.moves, if_pos (of_decide_eq_true concerns)] at moved
      exact absurd moved stays
  | insertReturned inserted value => cases concerns
  | answered request response => cases concerns

/-- A message that is let go while it is pending was put off. -/
theorem InHandSince.putOff {state : State}
    (held : InHandSince history since id task)
    (same : phase history task id = phase state.history task id)
    (pending : state.Pending id)
    (released : Released world state id (phase state.history task id)) :
    PutOff world since id task := by
  rw [← same] at released
  generalize current : phase history task id = reached at released
  cases released with
  | retired retired => exact absurd pending retired.2
  | @transient count error transient below =>
      rcases held.tried count _ current with ⟨started, ended⟩
      exact ⟨count, error, started, ended, transient, below⟩

/-- A note, which conduct allows, about a message that is pending. -/
theorem Left.noted {state : State} {acks : Prop} {note : Note}
    (left : Left world (biography id state.history) since id task)
    (conduct : Conduct world acks state actor (.observe note))
    (pending : state.Pending id) (concerns : note.concerns id = true) :
    Left world (.noted actor note :: biography id state.history)
      (.noted actor note :: since) id task := by
  by_cases mine : actor = task
  · cases left with
    | killed gone => exact .killed (gone.cons _)
    | putOff failed => exact .putOff (failed.cons _)
    | inHand held =>
        rw [mine] at conduct ⊢
        by_cases stays :
            phase (.noted task note :: biography id state.history) task id =
              .idle
        · have moved : note.moves id
              (phase (biography id state.history) task id) = .idle := by
            rwa [phase_cons, Happening.moves, if_pos rfl] at stays
          have finished := Note.eq_finished_of_moves_idle concerns moved
          rw [finished] at conduct
          exact .putOff
            ((held.putOff phase_biography pending conduct).cons _)
        · refine .inHand (held.noted stays ?_ concerns)
          intro ended same
          rw [same] at conduct
          rcases conduct with ⟨count, started⟩
          exact ⟨count, phase_biography.trans started⟩
  · exact left.cons (if_neg mine)

end Left

/-! ## Every run -/

/-- The message was last delivered to a loop, which has left it pending for
one of the reasons. -/
def Explained (world : World) (history : History) (id : MsgId) : Prop :=
  ∃ task since, LastDelivered history id task since ∧
    Left world history since id task ∧
      ∃ name, task = .consume name ∨ task = .reclaim name

theorem reaches_explained {world : World} {config : AppConfig} {id : MsgId}
    (reaches : Reaches world Permit.any config) :
    config.shared.Pending id →
      Explained world (biography id config.shared.history) id := by
  have within : ∀ state task command choice,
      (Permit.any : AppPermit).command state task command choice →
        (acking False).command state task command choice :=
    fun state task command choice _ => acking_false state task command choice
  let holds (state : State) : Prop := state.Pending id →
    Explained world (biography id state.history) id
  change holds config.shared
  refine turn_invariant id within ?_ ?_ reaches
  · rintro ⟨group, found, _⟩
    cases found
  · intro before after _ _ turn held pending
    cases turn with
    | quiet silent wasPending =>
        rw [silent]
        exact held (wasPending pending)
    | @read name running resting fresh isPending adds =>
        rw [adds]
        exact ⟨_, [], LastDelivered.newest _ _ _,
          .inHand (InHandSince.delivered _ _ _), name, Or.inl rfl⟩
    | @claim name _ _ _ _ running resting permitted claimed wasPending
        isPending adds =>
        rw [adds]
        exact ⟨_, [], LastDelivered.newest _ _ _,
          .inHand (InHandSince.delivered _ _ _), name, Or.inr rfl⟩
    | noted concerns conduct samePending adds =>
        have wasPending := samePending.mp pending
        rcases held wasPending with
          ⟨task, since, delivered, left, isLoop⟩
        rw [adds]
        exact ⟨task, _, delivered.cons rfl,
          left.noted conduct wasPending concerns, isLoop⟩
    | @killed name permitted samePending adds =>
        rcases held (samePending.mp pending) with
          ⟨task, since, delivered, left, isLoop⟩
        rw [adds]
        exact ⟨task, _, delivered.cons rfl, left.kill name, isLoop⟩

/-- Why a message is pending that was last delivered to the task: the task is
amid its round and has the message in hand, or its round has ended with an
exception before it let go of the message, or its worker was killed since, or
it has put the message off. -/
inductive WhyPending (world : World) (config : AppConfig) (since : History)
    (id : MsgId) (task : Tid) : Prop
  | inHand {command : Command}
      {resume : Except PyException command.Reply → App Unit}
      (running : config.tasks task = some (.call command resume))
      (held : phase config.shared.history task id ≠ .idle)
  | ended {error : PyException}
      (raised : config.tasks task = some (.raise error))
      (held : phase config.shared.history task id ≠ .idle)
  | killed (gone : KilledSince since task)
  | putOff (failed : PutOff world since id task)

/-- A loop that has a message in hand has not come to the end of its round. -/
theorem whyPending_of_held {world : World} {config : AppConfig}
    {since : History} {id : MsgId} {task : Tid}
    (reaches : Reaches world Permit.any config)
    (isLoop : ∃ name, task = .consume name ∨ task = .reclaim name)
    (held : phase config.shared.history task id ≠ .idle) :
    WhyPending world config since id task := by
  have unrested : ¬ Rests task config.shared := by
    intro rests
    rcases isLoop with ⟨name, consumes | reclaims⟩
    · rw [consumes] at rests held
      exact held (rests id)
    · rw [reclaims] at rests held
      exact held (rests id)
  cases current : config.tasks task with
  | none =>
      exact absurd ((reaches_manned reaches).resting task current) unrested
  | some program =>
      cases program with
      | call command resume => exact .inHand current held
      | raise error => exact .ended current held
      | ret value =>
          have within : ∀ state task command choice,
              (Permit.any : AppPermit).command state task command choice →
                (acking False).command state task command choice :=
            fun state task command choice _ =>
              acking_false state task command choice
          have good := reaches_good within reaches
          exact absurd (good.2 task _ current) unrested

/-- In every state of every run the last delivery of a pending message went
to a loop that is amid its round and has it in hand, or to one that has ended
with an exception before it let go of it, or to a worker that was killed since,
or has ended in a transient failure below the delivery limit. -/
theorem pending_is_explained {world : World} {config : AppConfig}
    (reaches : Reaches world Permit.any config) {id : MsgId}
    (pending : config.shared.Pending id) :
    ∃ task since, LastDelivered config.shared.history id task since ∧
      WhyPending world config since id task := by
  rcases reaches_explained reaches pending with
    ⟨task, told, delivered, left, isLoop⟩
  rcases delivered.of_biography with ⟨since, last, within⟩
  refine ⟨task, since, last, ?_⟩
  cases left with
  | inHand held =>
      refine whyPending_of_held reaches isLoop ?_
      rw [← phase_biography]
      exact held.held
  | killed gone =>
      rcases gone with ⟨name, mine, member⟩
      exact .killed ⟨name, mine, within _ member⟩
  | putOff failed =>
      rcases failed with ⟨count, error, started, ended, transient, below⟩
      exact .putOff ⟨count, error, within _ started, within _ ended,
        transient, below⟩

/-! ## A worker that is killed with a message in hand -/

/-- The message is pending. -/
def showsPending (id : MsgId) (config : AppConfig) : Bool :=
  config.shared.redis.group.any fun group => decide (group.Pending id)

theorem pending_of_shows {id : MsgId} {config : AppConfig}
    (shown : showsPending id config = true) : config.shared.Pending id := by
  rcases (Option.any_eq_true _ _).mp shown with ⟨group, found, pending⟩
  exact ⟨group, found, of_decide_eq_true pending⟩

theorem pending_is_explained_coffee :
    ∃ config, Reaches (coffeeWorld {}) Permit.any config ∧
      config.shared.Pending 0 ∧
        ∃ task since, LastDelivered config.shared.history 0 task since ∧
          WhyPending (coffeeWorld {}) config since 0 task := by
  have taken : ((system (coffeeWorld {})).run Guard.any start
      (post 0 coffee {} ++ launch 0 ++
        [.run (.consume 0) {}, .env (.kill 0)])).any (showsPending 0) =
      true := by decide +kernel
  rcases reaches_of_run respects_any taken with ⟨config, reaches, shown⟩
  have pending := pending_of_shows shown
  exact ⟨config, reaches, pending, pending_is_explained reaches pending⟩

end TxnEvents
