import TxnEvents.Delivery.Lives

/-!
# One hand at a time

Runs without kills and Redis failures in which XAUTOCLAIM hands out only what
no task still has in hand.  In them a message is in one hand at a time, every
delivery of an unfinished message ends in a transient error, and success and
dead-lettering exclude each other.
-/

namespace TxnEvents

open Effects Streams App

/-- Runs in which no worker is killed and every Redis command succeeds. -/
def undisturbed : AppPermit where
  command _ _ command choice := command.isRedis = true → choice.fate = .ok
  env _ event := ∀ name, event ≠ .kill name

/-- No task has in hand what the command hands out again. -/
def ClaimsIdle (state : State) : Command → Prop
  | .xautoclaim minIdleTime startId count =>
      ∀ id ∈ state.claimable minIdleTime startId count, ∀ task,
        phase state.history task id = .idle
  | _ => True

def exclusive : AppPermit where
  command state task command choice :=
    undisturbed.command state task command choice ∧ ClaimsIdle state command
  env := undisturbed.env

theorem exclusive_acking {state : State} {task : Tid} {command : Command}
    {choice : Choice}
    (permitted : exclusive.command state task command choice) :
    (acking True).command state task command choice := by
  cases command with
  | xack msgId => exact fun _ => permitted.1 rfl
  | _ => exact trivial

/-! ## The invariant -/

/-- Nothing has decided the fate of the message, and this many of its
deliveries have failed. -/
structure Undecided (life : Life) (failed : Nat) : Prop where
  successes : life.successes = 0
  letters : life.letters = 0
  failures : life.failures = failed

/-- What the phase of a message in hand says about its tallies. -/
def InOrder (life : Life) : Phase → Prop
  | .idle => True
  | .waiting => ∃ failed, Undecided life failed ∧ failed + 1 = life.deliveries
  | .started count => count ≤ life.deliveries ∧
      ∃ failed, Undecided life failed ∧ failed + 1 = life.deliveries
  | .tried _ (.ok _) => life.letters = 0
  | .tried count (.error error) => life.successes = 0 ∧ life.letters = 0 ∧
      (error.cls.isTransient = true →
        count ≤ life.deliveries ∧ life.failures = life.deliveries)
  | .leaving _ => life.successes = 0

structure Orderly (maxDeliveries : Nat) (life : Life) (pending : Prop) :
    Prop where
  single : ∀ left right, life.phase left ≠ .idle → life.phase right ≠ .idle →
    left = right
  fresh : life.deliveries = 0 →
    (∀ task, life.phase task = .idle) ∧ Undecided life 0
  inHand : ∀ task, InOrder life (life.phase task)
  atRest : pending → (∀ task, life.phase task = .idle) →
    Undecided life life.deliveries
  apart : life.successes = 0 ∨ life.letters = 0
  exhausted : 0 < life.exhaustions → maxDeliveries ≤ life.failures

namespace Orderly

variable {maxDeliveries : Nat} {life : Life} {pending : Prop} {task : Tid}

theorem newborn (maxDeliveries : Nat) (pending : Prop) :
    Orderly maxDeliveries .newborn pending where
  single := fun _ _ held _ => absurd rfl held
  fresh := fun _ => ⟨fun _ => rfl, rfl, rfl, rfl⟩
  inHand := fun _ => trivial
  atRest := fun _ _ => ⟨rfl, rfl, rfl⟩
  apart := Or.inl rfl
  exhausted := fun impossible => absurd impossible (Nat.lt_irrefl 0)

/-- A life in which one task at most has the message in hand. -/
theorem of_holder (task : Tid)
    (others : ∀ other, other ≠ task → life.phase other = .idle)
    (delivered : life.deliveries ≠ 0)
    (mine : InOrder life (life.phase task))
    (atRest : pending → life.phase task = .idle →
      Undecided life life.deliveries)
    (apart : life.successes = 0 ∨ life.letters = 0)
    (exhausted : 0 < life.exhaustions → maxDeliveries ≤ life.failures) :
    Orderly maxDeliveries life pending where
  single := by
    intro left right leftHeld rightHeld
    have leftMine : left = task := by
      by_contra different
      exact leftHeld (others left different)
    have rightMine : right = task := by
      by_contra different
      exact rightHeld (others right different)
    rw [leftMine, rightMine]
  fresh := fun none => absurd none delivered
  inHand := by
    intro other
    by_cases same : other = task
    · rw [same]
      exact mine
    · rw [others other same]
      exact trivial
  atRest := fun isPending idle => atRest isPending (idle task)
  apart := apart
  exhausted := exhausted

/-- A delivery of a message that nobody has in hand and whose deliveries have
all failed. -/
theorem deliver {later : Prop} (orderly : Orderly maxDeliveries life pending)
    (idle : ∀ other, life.phase other = .idle)
    (undecided : Undecided life life.deliveries) (task : Tid) :
    Orderly maxDeliveries (life.deliver task) later := by
  refine of_holder task ?_ (Nat.succ_ne_zero _) ?_ ?_ orderly.apart
    orderly.exhausted
  · intro other different
    simp only [Life.deliver, Function.update_of_ne different]
    exact idle other
  · simp only [Life.deliver, Function.update_self]
    exact ⟨life.deliveries, ⟨undecided.successes, undecided.letters,
      undecided.failures⟩, rfl⟩
  · intro _ impossible
    simp only [Life.deliver, Function.update_self] at impossible
    cases impossible

theorem others_idle (orderly : Orderly maxDeliveries life pending)
    (held : life.phase task ≠ .idle) :
    ∀ other, other ≠ task → life.phase other = .idle := by
  intro other different
  by_contra otherHeld
  exact different (orderly.single other task otherHeld held)

theorem delivered (orderly : Orderly maxDeliveries life pending)
    (held : life.phase task ≠ .idle) : life.deliveries ≠ 0 :=
  fun none => held ((orderly.fresh none).1 task)

/-- The note of the task that has the message in hand, which moves the phase
at that task only. -/
theorem noteOf {after : Life} {reached : Phase}
    (orderly : Orderly maxDeliveries life pending)
    (held : life.phase task ≠ .idle)
    (phases : after.phase = Function.update life.phase task reached)
    (deliveries : after.deliveries = life.deliveries)
    (mine : InOrder after reached)
    (atRest : pending → reached = .idle → Undecided after life.deliveries)
    (apart : after.successes = 0 ∨ after.letters = 0)
    (exhausted : 0 < after.exhaustions → maxDeliveries ≤ after.failures) :
    Orderly maxDeliveries after pending := by
  have here : after.phase task = reached := by
    rw [phases, Function.update_self]
  apply of_holder task
  · intro other different
    rw [phases, Function.update_of_ne different]
    exact orderly.others_idle held other different
  · rw [deliveries]
    exact orderly.delivered held
  · rw [here]
    exact mine
  · rw [here, deliveries]
    exact atRest
  · exact apart
  · exact exhausted

variable {id : Nat}

theorem processStarted {count : Nat}
    (orderly : Orderly maxDeliveries life pending)
    (waiting : life.phase task = .waiting) (upper : count ≤ life.deliveries) :
    Orderly maxDeliveries (life.note task (.processStarted id count))
      pending := by
  have mine := orderly.inHand task
  rw [waiting] at mine
  obtain ⟨failed, undecided, deliveries⟩ := mine
  have still : Undecided (life.note task (.processStarted id count)) failed :=
    ⟨undecided.successes, undecided.letters, undecided.failures⟩
  have held : life.phase task ≠ .idle := by simp [waiting]
  have moved : (life.note task (.processStarted id count)).phase =
      Function.update life.phase task (.started count) := rfl
  apply orderly.noteOf held moved
  · rfl
  · exact ⟨upper, failed, still, deliveries⟩
  · intro _ impossible
    cases impossible
  · exact Or.inl undecided.successes
  · exact orderly.exhausted

theorem processEnded {count : Nat} (ended : Except PyException Outcome)
    (orderly : Orderly maxDeliveries life pending)
    (started : life.phase task = .started count) :
    Orderly maxDeliveries (life.note task (.processEnded id ended))
      pending := by
  have mine := orderly.inHand task
  rw [started] at mine
  obtain ⟨upper, failed, undecided, deliveries⟩ := mine
  have held : life.phase task ≠ .idle := by simp [started]
  have counted : (life.phase task).count = count := by rw [started, Phase.count]
  cases ended with
  | ok outcome =>
      have moved : (life.note task (.processEnded id (.ok outcome))).phase =
          Function.update life.phase task (.tried count (.ok outcome)) := by
        rw [← counted]
        rfl
      apply orderly.noteOf held moved
      · rfl
      · exact undecided.letters
      · intro _ impossible
        cases impossible
      · exact Or.inr undecided.letters
      · exact orderly.exhausted
  | error error =>
      have failures := undecided.failures
      have moved : (life.note task (.processEnded id (.error error))).phase =
          Function.update life.phase task (.tried count (.error error)) := by
        rw [← counted]
        rfl
      apply orderly.noteOf held moved
      · rfl
      · refine ⟨undecided.successes, undecided.letters, ?_⟩
        intro transient
        simp only [Life.note, transient, if_true]
        exact ⟨upper, by omega⟩
      · intro _ impossible
        cases impossible
      · exact Or.inl undecided.successes
      · intro lettered
        have enough := orderly.exhausted lettered
        simp only [Life.note]
        omega

/-- A dead letter comes from a phase in which nothing has succeeded, and says
that deliveries are used up only when they are. -/
theorem deadLettering {reason : String}
    (orderly : Orderly maxDeliveries life pending)
    (held : life.phase task ≠ .idle) (unsuccessful : life.successes = 0)
    (exhausted : reason = exhaustedReason → maxDeliveries ≤ life.failures) :
    Orderly maxDeliveries (life.note task (.deadLettering id reason))
      pending := by
  have moved : (life.note task (.deadLettering id reason)).phase =
      Function.update life.phase task (.leaving reason) := rfl
  apply orderly.noteOf held moved
  · rfl
  · exact unsuccessful
  · intro _ impossible
    cases impossible
  · exact Or.inl unsuccessful
  · intro lettered
    by_cases isExhausted : reason = exhaustedReason
    · exact exhausted isExhausted
    · simp only [Life.note, if_neg isExhausted] at lettered
      exact orderly.exhausted lettered

theorem finished (orderly : Orderly maxDeliveries life pending)
    (held : life.phase task ≠ .idle)
    (released : pending → Undecided life life.deliveries) :
    Orderly maxDeliveries (life.note task (.finished id)) pending := by
  have moved : (life.note task (.finished id)).phase =
      Function.update life.phase task .idle := rfl
  apply orderly.noteOf held moved
  · rfl
  · exact trivial
  · intro isPending _
    have undecided := released isPending
    exact ⟨undecided.successes, undecided.letters, undecided.failures⟩
  · exact orderly.apart
  · exact orderly.exhausted

end Orderly

/-! ## Runs keep it -/

section Runs

variable {world : World} {state : State} {id : Nat} {task : Tid}

/-- The life of the message is in order. -/
def InOrderly (world : World) (id : Nat) (state : State) : Prop :=
  Orderly world.settings.maxDeliveries (life id state.history)
    (state.Pending id)

theorem orderly_deadLettering {reason : String}
    (orderly : InOrderly world id state)
    (honest : ∀ error,
      .noted task (.processEnded id (.error error)) ∈ state.history →
        Honest error)
    (excused : Excused world True state id reason
      (phase state.history task id)) :
    Orderly world.settings.maxDeliveries
      ((life id state.history).note task (.deadLettering id reason))
      (state.Pending id) := by
  have mine := orderly.inHand task
  change InOrder (life id state.history) (phase state.history task id) at mine
  have tried : ∀ count error,
      phase state.history task id = .tried count (.error error) →
        Honest error :=
    fun _ error reached => honest error (noted_of_phase_tried reached)
  have held : phase state.history task id ≠ .idle := by
    intro idle
    rw [idle] at excused
    cases excused
  suffices facts : (life id state.history).successes = 0 ∧
      (reason = exhaustedReason →
        world.settings.maxDeliveries ≤ (life id state.history).failures) from
    orderly.deadLettering held facts.1 facts.2
  generalize phase state.history task id = reached at excused mine tried
  cases excused with
  | unreadable unreadable different =>
      obtain ⟨failed, undecided, _⟩ := mine
      exact ⟨undecided.successes, fun same => absurd same different⟩
  | permanent permanent same =>
      refine ⟨mine.1, ?_⟩
      intro exhausted
      exact absurd (same.symm.trans exhausted) (tried _ _ rfl permanent)
  | exhausted transient enough =>
      refine ⟨mine.1, ?_⟩
      intro _
      obtain ⟨upper, failures⟩ := mine.2.2 transient
      omega
  | unexpected different =>
      exact ⟨mine.1, fun same => absurd same different⟩
  | unacknowledged unacknowledged => exact absurd trivial unacknowledged

theorem orderly_finished (orderly : InOrderly world id state)
    (released : Released world state id (phase state.history task id)) :
    Orderly world.settings.maxDeliveries
      ((life id state.history).note task (.finished id))
      (state.Pending id) := by
  by_cases idle : phase state.history task id = .idle
  · have same : (life id state.history).note task (.finished id) =
        life id state.history := by
      have unchanged : Function.update (life id state.history).phase task
          .idle = (life id state.history).phase := by
        rw [← idle]
        exact Function.update_eq_self task (life id state.history).phase
      simp only [Life.note, unchanged]
    rw [same]
    exact orderly
  · apply orderly.finished idle
    intro pending
    have mine := orderly.inHand task
    change InOrder (life id state.history) (phase state.history task id)
      at mine
    generalize phase state.history task id = reached at released mine
    cases released with
    | retired retired => exact absurd pending retired.2
    | transient transient below =>
        exact ⟨mine.1, mine.2.1, (mine.2.2 transient).2⟩

theorem orderly_noted {note : Note} (orderly : InOrderly world id state)
    (honest : ∀ error,
      .noted task (.processEnded id (.error error)) ∈ state.history →
        Honest error)
    (concerns : note.concerns id = true)
    (conduct : Conduct world True state task (.observe note)) :
    Orderly world.settings.maxDeliveries
      ((life id state.history).note task note) (state.Pending id) := by
  cases note with
  | processStarted msgId count =>
      cases of_decide_eq_true concerns
      exact Orderly.processStarted orderly conduct.waiting conduct.upper
  | processEnded msgId ended =>
      cases of_decide_eq_true concerns
      obtain ⟨count, started⟩ := conduct
      exact Orderly.processEnded ended orderly started
  | deadLettering msgId reason =>
      cases of_decide_eq_true concerns
      exact orderly_deadLettering orderly honest conduct
  | finished msgId =>
      cases of_decide_eq_true concerns
      exact orderly_finished orderly conduct
  | insertReturned inserted value => cases concerns
  | answered request response => cases concerns

/-- In exclusive runs every message has an orderly life. -/
theorem reaches_orderly {config : AppConfig}
    (reaches : Reaches world exclusive config) (id : Nat) :
    InOrderly world id config.shared := by
  have within : ∀ state task command choice,
      exclusive.command state task command choice →
        (acking True).command state task command choice :=
    fun _ _ _ _ permitted => exclusive_acking permitted
  refine turn_invariant id within ?_ ?_ reaches
  · exact Orderly.newborn _ _
  · intro before after reached _ turn orderly
    cases turn with
    | quiet silent pending =>
        rw [InOrderly, life_silent silent]
        exact {
          orderly with
          atRest := fun isPending => orderly.atRest (pending isPending) }
    | read running resting fresh pending adds =>
        rw [InOrderly, life_delivered adds]
        have none : deliveries before.shared.history id = 0 :=
          (reaches_counted reached).fresh id fresh
        obtain ⟨idle, undecided⟩ := orderly.fresh none
        apply orderly.deliver idle
        rw [show (life id before.shared.history).deliveries = 0 from none]
        exact undecided
    | claim running resting permitted claimed wasPending pending adds =>
        rw [InOrderly, life_delivered adds]
        have idle := permitted.2 id claimed
        exact orderly.deliver idle (orderly.atRest wasPending idle) _
    | noted concerns conduct pending adds =>
        rw [InOrderly, life_noted concerns adds, pending]
        apply orderly_noted orderly _ concerns conduct
        intro error member
        exact (reaches_safe_of_any reached).honest _ id error member
    | killed permitted pending adds => exact absurd rfl (permitted _)

end Runs

end TxnEvents
