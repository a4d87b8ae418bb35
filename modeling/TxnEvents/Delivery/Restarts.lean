import TxnEvents.Delivery.Bounds

/-!
# A worker that dies and comes back

One worker, killed and restarted at will.  A start of processing is lost with
its worker, and the delivery limit is looked at only after processing has
failed.  So the starts stay within the limit as long as no delivery at the
limit is killed in `handle`; where one is, the message comes back once more.
-/

namespace TxnEvents

open Effects Streams App

/-- The message is in the hands of `handle`. -/
def Phase.InHandle : Phase → Prop
  | .started _ => True
  | .tried _ _ => True
  | .leaving _ => True
  | _ => False

/-- The worker handles no pending event under the last ordinal allowed. -/
def SparesLast (world : World) (state : State) (name : Nat) : Prop :=
  ∀ task id, task.process = .worker name → state.Pending id →
    Readable world state id → (phase state.history task id).InHandle →
      lastOrdinal task id state.history < world.settings.maxDeliveries

/-- Runs of one worker, killed only where that spares the last delivery. -/
def sparingLast (world : World) (name : Nat) : AppPermit where
  command _ _ _ _ := True
  env state event :=
    match event with
    | .kill killed => SparesLast world state killed
    | .startWorker started => started = name
    | _ => True

/-! ## The invariant -/

namespace Life

/-- One if the task was given the message and has not begun with it. -/
def awaited (life : Life) (task : Tid) : Nat :=
  if life.phase task = .waiting then 1 else 0

theorem awaited_of_waiting {life : Life} {task : Tid}
    (waiting : life.phase task = .waiting) : life.awaited task = 1 :=
  if_pos waiting

theorem awaited_of_ne {life : Life} {task : Tid}
    (other : life.phase task ≠ .waiting) : life.awaited task = 0 :=
  if_neg other

theorem awaited_le_one (life : Life) (task : Tid) : life.awaited task ≤ 1 := by
  rw [awaited]
  split
  · exact Nat.le_refl 1
  · exact Nat.zero_le 1

theorem awaited_eq {before after : Life} {task : Tid}
    (same : after.phase task = before.phase task) :
    after.awaited task = before.awaited task := by
  rw [awaited, awaited, same]

end Life

/-- The starts of the message at the one worker.  A message that may come back
leaves room for one more. -/
structure Spared (limit name : Nat) (life : Life) (pending : Prop) : Prop where
  holders : ∀ task, life.phase task ≠ .idle →
    task = .consume name ∨ task = .reclaim name
  newest : life.phase (.reclaim name) ≠ .idle →
    life.deliveries ≠ 0 ∧ life.ordinal (.reclaim name) = life.deliveries
  delivered : life.starts + life.awaited (.consume name) +
    life.awaited (.reclaim name) ≤ life.deliveries
  bounded : life.starts + life.awaited (.consume name) +
    life.awaited (.reclaim name) ≤ limit
  room : pending → life.phase (.reclaim name) = .idle →
    life.starts + life.awaited (.consume name) + 1 ≤ limit

namespace Spared

variable {limit name : Nat} {before after : Life} {pending later : Prop}

theorem newborn (positive : 1 ≤ limit) :
    Spared limit name .newborn pending where
  holders := fun _ held => absurd rfl held
  newest := fun held => absurd rfl held
  delivered := Nat.le_refl 0
  bounded := Nat.zero_le limit
  room := fun _ _ => positive

/-- The first delivery, to the consume loop. -/
theorem read (spared : Spared limit name before pending) (enough : 2 ≤ limit)
    (fresh : before.deliveries = 0) :
    Spared limit name (before.deliver (.consume name)) later := by
  have idle : before.phase (.reclaim name) = .idle := by
    by_contra held
    exact (spared.newest held).1 fresh
  have different : Tid.reclaim name ≠ .consume name := by simp
  have still : (before.deliver (.consume name)).phase (.reclaim name) =
      .idle := by
    rw [before.deliver_phase_of_ne _ different, idle]
  have none : before.starts = 0 := by
    have few := spared.delivered
    omega
  have awaitedMine :=
    Life.awaited_of_waiting (before.deliver_phase_self (.consume name))
  have awaitedOther : (before.deliver (.consume name)).awaited
      (.reclaim name) = 0 := Life.awaited_of_ne (by simp [still])
  have starts := before.deliver_starts (.consume name)
  have deliveries := before.deliver_deliveries (.consume name)
  constructor
  · intro task held
    by_cases same : task = .consume name
    · exact Or.inl same
    · apply spared.holders task
      rwa [before.deliver_phase_of_ne _ same] at held
  · intro held
    exact absurd still held
  · omega
  · omega
  · intro _ _
    omega

/-- A later delivery, to the resting reclaim loop. -/
theorem claim (spared : Spared limit name before pending)
    (idle : before.phase (.reclaim name) = .idle) (isPending : pending) :
    Spared limit name (before.deliver (.reclaim name)) later := by
  have room := spared.room isPending idle
  have few := spared.delivered
  have resting : before.awaited (.reclaim name) = 0 :=
    Life.awaited_of_ne (by simp [idle])
  have different : Tid.consume name ≠ .reclaim name := by simp
  have other := Life.awaited_eq (before.deliver_phase_of_ne _ different)
  have awaitedMine :=
    Life.awaited_of_waiting (before.deliver_phase_self (.reclaim name))
  have starts := before.deliver_starts (.reclaim name)
  have deliveries := before.deliver_deliveries (.reclaim name)
  constructor
  · intro task held
    by_cases same : task = .reclaim name
    · exact Or.inr same
    · apply spared.holders task
      rwa [before.deliver_phase_of_ne _ same] at held
  · intro _
    exact ⟨Nat.succ_ne_zero _, before.deliver_ordinal_self _⟩
  · omega
  · omega
  · intro _ impossible
    rw [before.deliver_phase_self] at impossible
    cases impossible

/-- The task moves on.  It starts only what it was waiting for, and the
reclaim loop lets go only where room is left. -/
theorem move {task : Tid} {reached : Phase}
    (spared : Spared limit name before pending)
    (phases : after.phase = Function.update before.phase task reached)
    (ordinals : after.ordinal = before.ordinal)
    (deliveries : after.deliveries = before.deliveries)
    (notWaiting : reached ≠ .waiting)
    (held : reached ≠ .idle → before.phase task ≠ .idle)
    (starts : after.starts ≤ before.starts + before.awaited task)
    (room : pending → task = .reclaim name → reached = .idle →
      before.starts + before.awaited (.consume name) +
        before.awaited (.reclaim name) + 1 ≤ limit) :
    Spared limit name after pending := by
  have here : after.awaited task = 0 := by
    apply Life.awaited_of_ne
    rw [phases, Function.update_self]
    exact notWaiting
  have elsewhere : ∀ other, other ≠ task →
      after.phase other = before.phase other := by
    intro other different
    rw [phases, Function.update_of_ne different]
  -- No start is counted that was not awaited before.
  have total : after.starts + after.awaited (.consume name) +
      after.awaited (.reclaim name) ≤
        before.starts + before.awaited (.consume name) +
          before.awaited (.reclaim name) := by
    by_cases consume : task = .consume name
    · have other := Life.awaited_eq (elsewhere (.reclaim name) (by
        simp [consume]))
      rw [consume] at here starts
      omega
    · have first := Life.awaited_eq (elsewhere (.consume name) (Ne.symm consume))
      by_cases reclaim : task = .reclaim name
      · rw [reclaim] at here starts
        omega
      · have second :=
          Life.awaited_eq (elsewhere (.reclaim name) (Ne.symm reclaim))
        have idle : before.phase task = .idle := by
          by_contra holds
          cases spared.holders task holds with
          | inl same => exact consume same
          | inr same => exact reclaim same
        have none : before.awaited task = 0 :=
          Life.awaited_of_ne (by simp [idle])
        omega
  have few := spared.delivered
  have bounded := spared.bounded
  constructor
  · intro other holds
    by_cases same : other = task
    · rw [same] at holds ⊢
      rw [phases, Function.update_self] at holds
      exact spared.holders task (held holds)
    · rw [elsewhere other same] at holds
      exact spared.holders other holds
  · intro holds
    rw [ordinals, deliveries]
    by_cases same : task = .reclaim name
    · rw [phases, ← same, Function.update_self] at holds
      have heldBefore := held holds
      rw [same] at heldBefore
      exact spared.newest heldBefore
    · rw [elsewhere _ (Ne.symm same)] at holds
      exact spared.newest holds
  · omega
  · omega
  · intro isPending idle
    by_cases same : task = .reclaim name
    · rw [phases, ← same, Function.update_self] at idle
      have left := room isPending same idle
      omega
    · have idleBefore := idle
      rw [elsewhere _ (Ne.symm same)] at idleBefore
      have left := spared.room isPending idleBefore
      have none : before.awaited (.reclaim name) = 0 :=
        Life.awaited_of_ne (by simp [idleBefore])
      omega

/-- A kill that takes the message out of the hands of `handle` only before the
last delivery. -/
theorem kill {killed : Nat} (spared : Spared limit name before pending)
    (early : killed = name → pending →
      (before.phase (.reclaim name)).InHandle →
        before.starts + before.awaited (.consume name) + 1 ≤ limit) :
    Spared limit name (before.kill killed) pending := by
  have fewer : ∀ task,
      (before.kill killed).awaited task ≤ before.awaited task := by
    intro task
    simp only [Life.awaited, Life.kill]
    by_cases gone : task.process = .worker killed
    · simp [gone]
    · simp [gone]
  have consume := fewer (.consume name)
  have reclaim := fewer (.reclaim name)
  have starts : (before.kill killed).starts = before.starts := rfl
  have deliveries : (before.kill killed).deliveries = before.deliveries := rfl
  have few := spared.delivered
  have bounded := spared.bounded
  have stays : ∀ task, (before.kill killed).phase task ≠ .idle →
      before.phase task ≠ .idle := by
    intro task holds idle
    apply holds
    simp only [Life.kill, idle, ite_self]
  constructor
  · exact fun task holds => spared.holders task (stays task holds)
  · exact fun holds => spared.newest (stays _ holds)
  · omega
  · omega
  · intro isPending idle
    have left : before.starts + before.awaited (.consume name) + 1 ≤ limit := by
      by_cases same : killed = name
      · generalize current : before.phase (.reclaim name) = reached at early
        cases reached with
        | idle => exact spared.room isPending current
        | waiting =>
            have awaited := Life.awaited_of_waiting current
            omega
        | started count => exact early same isPending trivial
        | tried count ended => exact early same isPending trivial
        | leaving reason => exact early same isPending trivial
      · have elsewhere : ¬ (Tid.reclaim name).process = .worker killed := by
          intro mine
          cases mine
          exact same rfl
        apply spared.room isPending
        rw [← idle]
        exact (if_neg elsewhere).symm
    omega

end Spared

/-! ## Runs keep it -/

section Runs

variable {world : World} {acks : Prop} {name : Nat} {state : State} {id : Nat}
  {task : Tid}

theorem Readable.grow {after : State} (readable : Readable world state id)
    (grows : Grows state after) : Readable world after id := by
  obtain ⟨fields, event, entry, parsed⟩ := readable
  exact ⟨fields, event, grows.entryFields entry, parsed⟩

theorem Spared.noted {note : Note}
    (spared : Spared world.settings.maxDeliveries name (life id state.history)
      (state.Pending id))
    (measured : state.Pending id → AllMeasured (life id state.history))
    (concerns : note.concerns id = true)
    (conduct : Conduct world acks state task (.observe note)) :
    Spared world.settings.maxDeliveries name
      ((life id state.history).note task note) (state.Pending id) := by
  let before := life id state.history
  change Spared _ name before _ at spared
  change Spared _ name (before.note task note) _
  have phases : (before.note task note).phase =
      Function.update before.phase task (note.moves id (before.phase task)) :=
    Life.note_phase concerns
  cases note with
  | processStarted msgId count =>
      cases of_decide_eq_true concerns
      have waiting : before.phase task = .waiting := conduct.waiting
      have awaited := Life.awaited_of_waiting waiting
      have moved : (Note.processStarted id count).moves id
          (before.phase task) = .started count := if_pos rfl
      rw [moved] at phases
      apply spared.move phases Life.note_ordinal Life.note_deliveries
      · simp
      · intro _
        simp [waiting]
      · rw [awaited]
        exact Nat.le_refl _
      · intro _ _ impossible
        cases impossible
  | processEnded msgId ended =>
      cases of_decide_eq_true concerns
      obtain ⟨count, started⟩ := conduct
      change before.phase task = .started count at started
      have starts : (before.note task (.processEnded id ended)).starts =
          before.starts := by
        cases ended with
        | ok outcome => rfl
        | error error => rfl
      have moved : (Note.processEnded id ended).moves id
          (before.phase task) = .tried (before.phase task).count ended :=
        if_pos rfl
      rw [moved] at phases
      apply spared.move phases Life.note_ordinal Life.note_deliveries
      · simp
      · intro _
        simp [started]
      · rw [starts]
        exact Nat.le_add_right _ _
      · intro _ _ impossible
        cases impossible
  | deadLettering msgId reason =>
      cases of_decide_eq_true concerns
      have held : before.phase task ≠ .idle := by
        intro idle
        change phase state.history task id = .idle at idle
        change Excused world acks state id reason
          (phase state.history task id) at conduct
        rw [idle] at conduct
        cases conduct
      have moved : (Note.deadLettering id reason).moves id
          (before.phase task) = .leaving reason := if_pos rfl
      rw [moved] at phases
      apply spared.move phases Life.note_ordinal Life.note_deliveries
      · simp
      · exact fun _ => held
      · exact Nat.le_add_right _ _
      · intro _ _ impossible
        cases impossible
  | finished msgId =>
      cases of_decide_eq_true concerns
      have moved : (Note.finished id).moves id (before.phase task) = .idle :=
        if_pos rfl
      rw [moved] at phases
      apply spared.move phases Life.note_ordinal Life.note_deliveries
      · simp
      · exact fun impossible => absurd rfl impossible
      · exact Nat.le_add_right _ _
      · intro pending mine _
        by_cases idle : before.phase (.reclaim name) = .idle
        · have room := spared.room pending idle
          have none : before.awaited (.reclaim name) = 0 :=
            Life.awaited_of_ne (by simp [idle])
          omega
        · -- What it lets go of was the newest delivery, below the limit.
          obtain ⟨_, newest⟩ := spared.newest idle
          have early := ordinal_lt_of_released pending (measured pending) conduct
          rw [mine] at early
          change before.ordinal (.reclaim name) < _ at early
          have few := spared.delivered
          omega
  | insertReturned inserted value => cases concerns
  | answered request response => cases concerns

/-- Only a message that parses is started. -/
theorem readable_of_started {note : Note} (concerns : note.concerns id = true)
    (conduct : Conduct world acks state task (.observe note))
    (readable : (life id state.history).starts ≠ 0 → Readable world state id)
    (started : ((life id state.history).note task note).starts ≠ 0) :
    Readable world state id := by
  cases note with
  | processStarted msgId count =>
      cases of_decide_eq_true concerns
      exact conduct.readable
  | processEnded msgId ended =>
      cases ended with
      | ok outcome => exact readable started
      | error error => exact readable started
  | deadLettering msgId reason => exact readable started
  | finished msgId => exact readable started
  | insertReturned inserted value => cases concerns
  | answered request response => cases concerns

theorem reaches_spared {config : AppConfig}
    (enough : 2 ≤ world.settings.maxDeliveries)
    (reaches : Reaches world (sparingLast world name) config) (id : Nat) :
    Spared world.settings.maxDeliveries name (life id config.shared.history)
        (config.shared.Pending id) ∧
      ((life id config.shared.history).starts ≠ 0 →
        Readable world config.shared id) := by
  let holds (state : State) : Prop :=
    Spared world.settings.maxDeliveries name (life id state.history)
        (state.Pending id) ∧
      ((life id state.history).starts ≠ 0 → Readable world state id)
  have within : ∀ state task command choice,
      (sparingLast world name).command state task command choice →
        (acking False).command state task command choice :=
    fun state task command choice _ => acking_false state task command choice
  change holds config.shared
  refine turn_invariant id within ?_ ?_ reaches
  · exact ⟨Spared.newborn world.settings.maxDeliveries_pos,
      fun started => absurd rfl started⟩
  · intro before after reached grows turn held
    obtain ⟨spared, readable⟩ := held
    have staff : Staffed (· = name) before.tasks :=
      reaches_staffed (fun _ _ hire => hire) reached
    change Spared _ name (life id after.history) (after.Pending id) ∧
      ((life id after.history).starts ≠ 0 → Readable world after id)
    cases turn with
    | quiet silent pending =>
        rw [life_silent silent]
        have still : Spared world.settings.maxDeliveries name
            (life id before.shared.history) (after.Pending id) :=
          { spared with
            room := fun isPending => spared.room (pending isPending) }
        exact ⟨still, fun started => (readable started).grow grows⟩
    | @read actor running resting fresh pending adds =>
        rw [life_delivered adds, staff _ actor running rfl]
        have none : (life id before.shared.history).deliveries = 0 :=
          (reaches_counted reached).fresh id fresh
        exact ⟨spared.read enough none,
          fun started => (readable started).grow grows⟩
    | @claim actor _ _ _ _ running resting _ _ wasPending pending adds =>
        rw [life_delivered adds]
        rw [staff _ actor running rfl] at resting ⊢
        exact ⟨spared.claim (resting id) wasPending,
          fun started => (readable started).grow grows⟩
    | noted concerns conduct pending adds =>
        rw [life_noted concerns adds, pending]
        exact ⟨spared.noted (reaches_measured reached id) concerns conduct,
          fun started =>
            (readable_of_started concerns conduct readable started).grow grows⟩
    | @killed killed permitted pending adds =>
        rw [life_killed adds, pending]
        refine ⟨spared.kill ?_, fun started => (readable started).grow grows⟩
        intro same isPending inHand
        have few := spared.delivered
        by_cases started : (life id before.shared.history).starts = 0
        · have atMostOne := (life id before.shared.history).awaited_le_one
            (.consume name)
          omega
        · have held : (life id before.shared.history).phase (.reclaim name) ≠
              .idle := by
            intro idle
            rw [idle] at inHand
            exact inHand
          obtain ⟨_, newest⟩ := spared.newest held
          have early := permitted (.reclaim name) id (by rw [same]; rfl)
            isPending (readable started) inHand
          change (life id before.shared.history).ordinal (.reclaim name) < _
            at early
          omega

/-- One worker, killed and restarted at will but never in `handle` with a
pending event whose delivery has reached `max_deliveries`, starts processing
no message more often than `max_deliveries`. -/
theorem starts_le_maxDeliveries {config : AppConfig}
    (enough : 2 ≤ world.settings.maxDeliveries)
    (reaches : Reaches world (sparingLast world name) config) (id : Nat) :
    tally (Note.starts id) config.shared.history ≤
      world.settings.maxDeliveries := by
  have bounded := (reaches_spared enough reaches id).1.bounded
  change (life id config.shared.history).starts ≤ _
  omega

end Runs

/-! ## Kills of a worker -/

/-- The deliveries of all messages together. -/
def totalDeliveries (history : History) : Nat :=
  history.countP fun happening =>
    match happening with
    | .delivered _ _ => true
    | _ => false

theorem deliveries_le_totalDeliveries (history : History) (id : Nat) :
    deliveries history id ≤ totalDeliveries history := by
  apply List.countP_mono_left
  intro happening _ delivery
  cases happening with
  | delivered task msgId => rfl
  | _ => cases delivery

/-- Worker 0, killed only while there were fewer deliveries than allowed. -/
def killedEarly (world : World) : AppGuard where
  command _ _ _ _ := true
  env state event :=
    match event with
    | .kill _ =>
        decide (totalDeliveries state.history < world.settings.maxDeliveries)
    | .startWorker name => decide (name = 0)
    | _ => true

theorem respects_killedEarly (world : World) :
    (killedEarly world).Respects (sparingLast world 0) where
  command := fun _ _ _ _ _ => trivial
  env := by
    intro state event passed
    cases event with
    | kill name =>
        intro task id _ _ _ _
        have few := of_decide_eq_true passed
        have ordinal := lastOrdinal_le_deliveries task id state.history
        have total := deliveries_le_totalDeliveries state.history id
        omega
    | startWorker name =>
        have first : name = 0 := of_decide_eq_true passed
        exact first
    | _ => exact trivial

/-- A start of processing by the consume loop that dies with the worker. -/
def dieConsuming : List AppAction :=
  steps (.consume 0) 2 {} ++ [.env (.kill 0)]

/-- A start of processing by the reclaim loop that dies with the worker. -/
def dieReclaiming : List AppAction :=
  launch 0 ++ [.env (.tick 15000)] ++ steps (.reclaim 0) 4 {} ++
    [.env (.kill 0)]

theorem starts_le_maxDeliveries_coffee :
    ∃ config, Reaches (coffeeWorld impatient)
        (sparingLast (coffeeWorld impatient) 0) config ∧
      tally (Note.starts 0) config.shared.history = 2 ∧
        tally (Note.starts 0) config.shared.history ≤ 2 := by
  have taken : ((system (coffeeWorld impatient)).run
      (killedEarly (coffeeWorld impatient)) start
      (post 0 coffee {} ++ launch 0 ++ dieConsuming ++ launch 0 ++
        [.env (.tick 15000)] ++ giveUp 0)).any
          (fun config =>
            decide (tally (Note.starts 0) config.shared.history = 2)) =
      true := by decide +kernel
  obtain ⟨config, reaches, shown⟩ :=
    reaches_of_run (respects_killedEarly _) taken
  exact ⟨config, reaches, of_decide_eq_true shown,
    starts_le_maxDeliveries (by decide) reaches 0⟩

/-- Runs of worker 0 alone, killed at will. -/
def alone : AppPermit where
  command _ _ _ _ := True
  env _ event :=
    match event with
    | .startWorker name => name = 0
    | _ => True

def aloneGuard : AppGuard where
  command _ _ _ _ := true
  env _ event :=
    match event with
    | .startWorker name => decide (name = 0)
    | _ => true

theorem respects_alone : aloneGuard.Respects alone where
  command := fun _ _ _ _ _ => trivial
  env := by
    intro state event passed
    cases event with
    | startWorker name =>
        have first : name = 0 := of_decide_eq_true passed
        exact first
    | _ => exact trivial

/-- A worker that dies at every start is given the message again, however
often that was, and never dead-letters it. -/
theorem killed_in_flight_starts_again :
    ∃ config, Reaches (coffeeWorld impatient) alone config ∧
      (coffeeWorld impatient).settings.maxDeliveries <
          tally (Note.starts 0) config.shared.history ∧
        config.shared.redis.deadLetters = [] := by
  have taken : ((system (coffeeWorld impatient)).run aloneGuard start
      (post 0 coffee {} ++ launch 0 ++ dieConsuming ++ dieReclaiming ++
        dieReclaiming)).any
          (fun config =>
            decide (2 < tally (Note.starts 0) config.shared.history) &&
              config.shared.redis.deadLetters.isEmpty) = true := by
    decide +kernel
  obtain ⟨config, reaches, shown⟩ := reaches_of_run respects_alone taken
  obtain ⟨more, none⟩ := Bool.and_eq_true_iff.mp shown
  exact ⟨config, reaches, of_decide_eq_true more, List.isEmpty_iff.mp none⟩

end TxnEvents
