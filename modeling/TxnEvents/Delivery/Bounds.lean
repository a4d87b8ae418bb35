import Mathlib.Order.Interval.Finset.Nat
import TxnEvents.Delivery.Fates

/-!
# No message circulates forever

While a message is pending, the delivery count that a task processes it with
is at least the ordinal of the delivery it was given.  So a task that lets go
of a pending message was given it among the first deliveries, and when no
worker dies, every later delivery still has its own task: there are as many of
those as there are reclaim loops.
-/

namespace TxnEvents

open Effects Streams App

/-! ## Counts keep up with ordinals -/

/-- The count that a message is processed with is no less than this. -/
def Measured (ordinal : Nat) : Phase → Prop
  | .started count => ordinal ≤ count
  | .tried count _ => ordinal ≤ count
  | _ => True

theorem measured_zero (current : Phase) : Measured 0 current := by
  cases current with
  | started count => exact Nat.zero_le _
  | tried count ended => exact Nat.zero_le _
  | _ => exact trivial

def AllMeasured (life : Life) : Prop :=
  ∀ task, Measured (life.ordinal task) (life.phase task)

theorem AllMeasured.update {before after : Life} {task : Tid}
    {reached : Phase} (measured : AllMeasured before)
    (ordinals : after.ordinal = before.ordinal)
    (phases : after.phase = Function.update before.phase task reached)
    (mine : Measured (before.ordinal task) reached) : AllMeasured after := by
  intro other
  rw [ordinals, phases]
  by_cases same : other = task
  · rw [same, Function.update_self]
    exact mine
  · rw [Function.update_of_ne same]
    exact measured other

theorem AllMeasured.deliver {life : Life} (measured : AllMeasured life)
    (task : Tid) : AllMeasured (life.deliver task) := by
  intro other
  by_cases same : other = task
  · simp only [Life.deliver, same, Function.update_self]
    exact trivial
  · simp only [Life.deliver, Function.update_of_ne same]
    exact measured other

theorem AllMeasured.kill {life : Life} (measured : AllMeasured life)
    (name : Nat) : AllMeasured (life.kill name) := by
  intro other
  simp only [Life.kill]
  split
  · exact trivial
  · exact measured other

section Runs

variable {world : World} {acks : Prop} {state : State} {id : Nat} {task : Tid}

theorem AllMeasured.noted {note : Note}
    (measured : AllMeasured (life id state.history))
    (pending : state.Pending id) (concerns : note.concerns id = true)
    (conduct : Conduct world acks state task (.observe note)) :
    AllMeasured ((life id state.history).note task note) := by
  apply measured.update Life.note_ordinal (Life.note_phase concerns)
  have mine : Measured (lastOrdinal task id state.history)
    (phase state.history task id) := measured task
  change Measured (lastOrdinal task id state.history)
    (note.moves id (phase state.history task id))
  cases note with
  | processStarted msgId count =>
      cases of_decide_eq_true concerns
      rw [Note.moves, if_pos rfl]
      cases conduct.lower with
      | inl retired => exact absurd pending retired.2
      | inr bound => exact bound
  | processEnded msgId ended =>
      cases of_decide_eq_true concerns
      obtain ⟨count, started⟩ := conduct
      rw [started] at mine ⊢
      rw [Note.moves, if_pos rfl, Phase.count]
      exact mine
  | deadLettering msgId reason =>
      rw [Note.moves, if_pos (of_decide_eq_true concerns)]
      exact trivial
  | finished msgId =>
      rw [Note.moves, if_pos (of_decide_eq_true concerns)]
      exact trivial
  | insertReturned inserted value => cases concerns
  | answered request response => cases concerns

/-- Before its first delivery a message has no ordinals. -/
theorem ordinal_of_fresh {config : AppConfig} {permit : AppPermit}
    (reaches : Reaches world permit config)
    (fresh : ¬ config.shared.HandedOut id) (task : Tid) :
    (life id config.shared.history).ordinal task = 0 := by
  have none : deliveries config.shared.history id = 0 :=
    (reaches_counted reaches).fresh id fresh
  have bound := lastOrdinal_le_deliveries task id config.shared.history
  change lastOrdinal task id config.shared.history = 0
  omega

/-- As long as a message is pending, no count is behind an ordinal. -/
theorem reaches_measured {permit : AppPermit} {config : AppConfig}
    (reaches : Reaches world permit config) (id : Nat) :
    config.shared.Pending id →
      AllMeasured (life id config.shared.history) := by
  let holds (state : State) : Prop :=
    state.Pending id → AllMeasured (life id state.history)
  have within : ∀ state task command choice,
      permit.command state task command choice →
        (acking False).command state task command choice :=
    fun state task command choice _ => acking_false state task command choice
  change holds config.shared
  refine turn_invariant id within ?_ ?_ reaches
  · intro pending
    obtain ⟨group, found, _⟩ := pending
    cases found
  · intro before after reached _ turn held pendingAfter
    cases turn with
    | quiet silent pending =>
        rw [life_silent silent]
        exact held (pending pendingAfter)
    | read running resting fresh pending adds =>
        rw [life_delivered adds]
        have measured : AllMeasured (life id before.shared.history) := by
          intro task
          rw [ordinal_of_fresh reached fresh task]
          exact measured_zero _
        exact measured.deliver _
    | claim running resting permitted claimed wasPending pending adds =>
        rw [life_delivered adds]
        exact (held wasPending).deliver _
    | noted concerns conduct pending adds =>
        rw [life_noted concerns adds]
        have wasPending := pending.mp pendingAfter
        exact (held wasPending).noted wasPending concerns conduct
    | killed permitted pending adds =>
        rw [life_killed adds]
        exact (held (pending.mp pendingAfter)).kill _

end Runs

/-! ## Workers that stay -/

/-- Runs in which no worker is killed and only so many are started. -/
def staffed (workers : Nat) : AppPermit where
  command _ _ _ _ := True
  env _ event :=
    match event with
    | .kill _ => False
    | .startWorker name => name < workers
    | _ => True

/-- Only hired workers run. -/
def Staffed (hired : Nat → Prop) (tasks : AppTasks) : Prop :=
  ∀ task name, tasks task ≠ none → task.process = .worker name → hired name

theorem Follows.process {world : World} {finished task : Tid}
    {program : App Unit} (follows : Follows world finished task program) :
    task.process = finished.process := by
  cases follows with
  | consumeAgain name => rfl
  | reclaimAgain name => rfl
  | consumeFirst name => rfl
  | reclaimFirst name => rfl

theorem reaches_staffed {world : World} {permit : AppPermit}
    {hired : Nat → Prop} {config : AppConfig}
    (hires : ∀ state name, permit.env state (.startWorker name) → hired name)
    (reaches : Reaches world permit config) : Staffed hired config.tasks := by
  let holds (reached : AppConfig) : Prop := Staffed hired reached.tasks
  have begins : holds start := by
    intro task name running _
    exact absurd rfl running
  change holds config
  refine System.Reachable.invariant begins ?_ reaches
  intro before action after current allowed taken
  have known : ∀ task program name, before.tasks task = some program →
      task.process = .worker name → hired name := by
    intro task program name running mine
    apply current task name _ mine
    rw [running]
    exact Option.some_ne_none _
  intro task name runs mine
  obtain ⟨program, found⟩ := Option.ne_none_iff_exists'.mp runs
  cases System.step_cases taken with
  | @ran actor _ _ _ _ _ running _ same =>
      rw [same] at found
      by_cases own : task = actor
      · rw [own] at mine
        exact known actor _ name running mine
      · simp only [Function.update_of_ne own] at found
        exact known task program name found mine
  | finished running same =>
      rw [same] at found
      cases next_cases found with
      | inl kept => exact known task program name kept mine
      | inr follows =>
          rw [follows.process] at mine
          exact known _ _ name running mine
  | happened occurred =>
      cases happen_tasks occurred found with
      | inl kept => exact known task program name kept.1 mine
      | inr begins =>
          cases begins with
          | serve number request => cases mine
          | boot started =>
              cases mine
              exact hires _ _ allowed

/-! ## The bound -/

/-- Who was given the message last, and under which ordinal: a consume loop
only the first time. -/
def Given (workers : Nat) (task : Tid) (ordinal : Nat) : Prop :=
  ∃ name < workers, (task = .consume name ∧ ordinal = 1) ∨ task = .reclaim name

structure Bounded (limit workers : Nat) (life : Life) (pending : Prop) :
    Prop where
  given : ∀ task, life.ordinal task ≠ 0 →
    Given workers task (life.ordinal task)
  early : pending → ∀ task, life.phase task = .idle →
    life.ordinal task < limit
  /-- Every delivery from the limit on is still the last one of its task. -/
  traced : pending → ∀ ordinal, limit ≤ ordinal → ordinal ≤ life.deliveries →
    ∃ task, life.ordinal task = ordinal
  bounded : life.deliveries ≤ limit + workers

/-- Ordinals of distinct reclaim loops are as many as the loops. -/
theorem ordinals_le_workers (ordinal : Nat → Nat) {low high workers : Nat}
    (traced : ∀ number, low ≤ number → number ≤ high →
      ∃ name < workers, ordinal name = number) :
    high + 1 - low ≤ workers := by
  have covered : Finset.Icc low high ⊆
      (Finset.range workers).image ordinal := by
    intro number member
    obtain ⟨above, below⟩ := Finset.mem_Icc.mp member
    obtain ⟨name, within, same⟩ := traced number above below
    exact Finset.mem_image.mpr ⟨name, Finset.mem_range.mpr within, same⟩
  have sizes := Finset.card_le_card covered
  have images :=
    Finset.card_image_le (s := Finset.range workers) (f := ordinal)
  rw [Nat.card_Icc] at sizes
  rw [Finset.card_range] at images
  omega

namespace Bounded

variable {limit workers : Nat} {present : Life} {pending later : Prop}

/-- While every late delivery can be traced, the bound holds. -/
theorem deliveries_le (positive : 1 ≤ limit)
    (given : ∀ task, present.ordinal task ≠ 0 →
      Given workers task (present.ordinal task))
    (traced : ∀ ordinal, limit ≤ ordinal → ordinal ≤ present.deliveries →
      ∃ task, present.ordinal task = ordinal) :
    present.deliveries ≤ limit + workers := by
  have counted : present.deliveries + 1 - max limit 2 ≤ workers := by
    apply ordinals_le_workers fun name => present.ordinal (.reclaim name)
    intro number above below
    have fromLimit : limit ≤ number := le_trans (le_max_left _ _) above
    have fromTwo : 2 ≤ number := le_trans (le_max_right _ _) above
    obtain ⟨task, same⟩ := traced number fromLimit below
    have delivered : present.ordinal task ≠ 0 := by omega
    obtain ⟨name, within, consume | reclaim⟩ := given task delivered
    · omega
    · rw [reclaim] at same
      exact ⟨name, within, same⟩
  omega

theorem deliver {task : Tid} (positive : 1 ≤ limit)
    (bounded : Bounded limit workers present pending)
    (idle : present.phase task = .idle)
    (mine : Given workers task (present.deliveries + 1))
    (early : ∀ other, present.phase other = .idle →
      present.ordinal other < limit)
    (traced : ∀ ordinal, limit ≤ ordinal → ordinal ≤ present.deliveries →
      ∃ other, present.ordinal other = ordinal) :
    Bounded limit workers (present.deliver task) later := by
  have given : ∀ other, (present.deliver task).ordinal other ≠ 0 →
      Given workers other ((present.deliver task).ordinal other) := by
    intro other delivered
    by_cases same : other = task
    · simp only [Life.deliver, same, Function.update_self]
      exact mine
    · simp only [Life.deliver, Function.update_of_ne same] at delivered ⊢
      exact bounded.given other delivered
  have tracedAfter : ∀ ordinal, limit ≤ ordinal →
      ordinal ≤ (present.deliver task).deliveries →
        ∃ other, (present.deliver task).ordinal other = ordinal := by
    intro ordinal fromLimit within
    simp only [Life.deliver] at within ⊢
    by_cases newest : ordinal = present.deliveries + 1
    · exact ⟨task, by rw [Function.update_self, newest]⟩
    · obtain ⟨other, same⟩ := traced ordinal fromLimit (by omega)
      have different : other ≠ task := by
        intro equal
        rw [equal] at same
        have before := early task idle
        omega
      exact ⟨other, by rw [Function.update_of_ne different, same]⟩
  constructor
  · exact given
  · intro _ other otherIdle
    by_cases same : other = task
    · simp only [Life.deliver, same, Function.update_self] at otherIdle
      cases otherIdle
    · simp only [Life.deliver, Function.update_of_ne same] at otherIdle ⊢
      exact early other otherIdle
  · exact fun _ => tracedAfter
  · exact deliveries_le positive given tracedAfter

/-- A note of the task, which may let go of the message only among the first
deliveries. -/
theorem update {after : Life} {task : Tid} {reached : Phase}
    (bounded : Bounded limit workers present pending)
    (phases : after.phase = Function.update present.phase task reached)
    (ordinals : after.ordinal = present.ordinal)
    (deliveries : after.deliveries = present.deliveries)
    (early : pending → reached = .idle → present.ordinal task < limit) :
    Bounded limit workers after pending := by
  constructor
  · rw [ordinals]
    exact bounded.given
  · intro isPending other idle
    rw [ordinals]
    by_cases same : other = task
    · rw [phases, same, Function.update_self] at idle
      rw [same]
      exact early isPending idle
    · rw [phases, Function.update_of_ne same] at idle
      exact bounded.early isPending other idle
  · rw [ordinals, deliveries]
    exact bounded.traced
  · rw [deliveries]
    exact bounded.bounded

end Bounded

section Runs

variable {world : World} {acks : Prop} {workers : Nat} {state : State}
  {id : Nat} {task : Tid}

/-- A task lets go of a pending message only while its count, and so the
ordinal, is below the limit. -/
theorem ordinal_lt_of_released (pending : state.Pending id)
    (measured : AllMeasured (life id state.history))
    (released : Released world state id (phase state.history task id)) :
    lastOrdinal task id state.history < world.settings.maxDeliveries := by
  have mine := measured task
  change Measured (lastOrdinal task id state.history)
    (phase state.history task id) at mine
  generalize phase state.history task id = reached at released mine
  cases released with
  | retired retired => exact absurd pending retired.2
  | transient _ below => exact Nat.lt_of_le_of_lt mine below

theorem Bounded.noted {note : Note}
    (bounded : Bounded world.settings.maxDeliveries workers
      (life id state.history) (state.Pending id))
    (measured : state.Pending id → AllMeasured (life id state.history))
    (concerns : note.concerns id = true)
    (conduct : Conduct world acks state task (.observe note)) :
    Bounded world.settings.maxDeliveries workers
      ((life id state.history).note task note) (state.Pending id) := by
  apply bounded.update (Life.note_phase concerns) Life.note_ordinal
    Life.note_deliveries
  intro pending idle
  have finished : note = .finished id :=
    Note.eq_finished_of_moves_idle concerns idle
  rw [finished] at conduct
  exact ordinal_lt_of_released pending (measured pending) conduct

theorem reaches_bounded {config : AppConfig}
    (reaches : Reaches world (staffed workers) config) (id : Nat) :
    Bounded world.settings.maxDeliveries workers
      (life id config.shared.history) (config.shared.Pending id) := by
  let holds (state : State) : Prop :=
    Bounded world.settings.maxDeliveries workers (life id state.history)
      (state.Pending id)
  have within : ∀ state task command choice,
      (staffed workers).command state task command choice →
        (acking False).command state task command choice :=
    fun state task command choice _ => acking_false state task command choice
  have positive := world.settings.maxDeliveries_pos
  change holds config.shared
  refine turn_invariant id within ?_ ?_ reaches
  · constructor
    · intro task delivered
      exact absurd rfl delivered
    · intro _ task _
      exact positive
    · intro _ ordinal fromLimit none
      exact absurd (Nat.le_trans fromLimit none) (Nat.not_le.mpr positive)
    · exact Nat.zero_le _
  · intro before after reached _ turn bounded
    have staff : Staffed (· < workers) before.tasks :=
      reaches_staffed (fun _ _ hire => hire) reached
    cases turn with
    | quiet silent pending =>
        change Bounded _ _ (life id after.history) _
        rw [life_silent silent]
        exact {
          given := bounded.given
          early := fun isPending => bounded.early (pending isPending)
          traced := fun isPending => bounded.traced (pending isPending)
          bounded := bounded.bounded }
    | @read name running resting fresh pending adds =>
        change Bounded _ _ (life id after.history) _
        rw [life_delivered adds]
        have none : (life id before.shared.history).deliveries = 0 :=
          (reaches_counted reached).fresh id fresh
        have within := staff _ name running rfl
        apply bounded.deliver positive (resting id)
        · rw [none]
          exact ⟨name, within, Or.inl ⟨rfl, rfl⟩⟩
        · intro other _
          rw [ordinal_of_fresh reached fresh other]
          exact positive
        · intro ordinal fromLimit below
          rw [none] at below
          exact absurd (Nat.le_trans fromLimit below)
            (Nat.not_le.mpr positive)
    | @claim name _ _ _ _ running resting _ _ wasPending pending adds =>
        change Bounded _ _ (life id after.history) _
        rw [life_delivered adds]
        have within := staff _ name running rfl
        apply bounded.deliver positive (resting id)
        · exact ⟨name, within, Or.inr rfl⟩
        · exact bounded.early wasPending
        · exact bounded.traced wasPending
    | noted concerns conduct pending adds =>
        change Bounded _ _ (life id after.history) (after.Pending id)
        rw [life_noted concerns adds, pending]
        exact bounded.noted (reaches_measured reached id) concerns conduct
    | killed permitted pending adds => exact permitted.elim

/-- With so many workers, none of which dies, a message is delivered at most
that many times more than `max_deliveries`. -/
theorem deliveries_le_maxDeliveries_add_workers {config : AppConfig}
    (reaches : Reaches world (staffed workers) config) (id : Nat) :
    deliveries config.shared.history id ≤
      world.settings.maxDeliveries + workers :=
  (reaches_bounded reaches id).bounded

end Runs

/-- One worker, which is never killed. -/
def loneWorker : AppGuard where
  command _ _ _ _ := true
  env _ event :=
    match event with
    | .kill _ => false
    | .startWorker name => decide (name < 1)
    | _ => true

theorem respects_loneWorker : loneWorker.Respects (staffed 1) where
  command := fun _ _ _ _ _ => trivial
  env := by
    intro state event passed
    cases event with
    | kill name => cases passed
    | startWorker name =>
      have within : name < 1 := of_decide_eq_true passed
      exact within
    | _ => exact trivial

theorem deliveries_le_maxDeliveries_add_workers_coffee :
    ∃ config, Reaches (coffeeWorld impatient) (staffed 1) config ∧
      deliveries config.shared.history 0 = 2 ∧
        deliveries config.shared.history 0 ≤ 2 + 1 := by
  have taken : ((system (coffeeWorld impatient)).run loneWorker start
      failTwice).any
        (fun config => decide (deliveries config.shared.history 0 = 2)) =
      true := by decide +kernel
  obtain ⟨config, reaches, shown⟩ := reaches_of_run respects_loneWorker taken
  exact ⟨config, reaches, of_decide_eq_true shown,
    deliveries_le_maxDeliveries_add_workers reaches 0⟩

end TxnEvents
