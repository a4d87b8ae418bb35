import TxnEvents.System.Counts

/-!
# How far a task has come with a message

The history of a run tells for every task and message whether the task has the
message in hand, whether it has started and ended processing it, and whether
it is writing it to the dead-letter stream.  It also tells the ordinal of the
last delivery of the message to the task.
-/

namespace TxnEvents

open Effects Python Streams

inductive Phase
  | idle
  | waiting
  | started (count : Nat)
  | tried (count : Nat) (ended : Except PyException Outcome)
  | leaving (reason : String)
deriving DecidableEq

namespace Phase

/-- The delivery count that processing was started with. -/
def count : Phase → Nat
  | started count => count
  | tried count _ => count
  | _ => 0

end Phase

/-- What a note of a task makes of the phase of a message. -/
def Note.moves (note : Note) (id : Nat) (before : Phase) : Phase :=
  match note with
  | processStarted msgId count =>
      if msgId = id then .started count else before
  | processEnded msgId ended =>
      if msgId = id then .tried before.count ended else before
  | deadLettering msgId reason =>
      if msgId = id then .leaving reason else before
  | finished msgId => if msgId = id then .idle else before
  | insertReturned _ _ => before
  | answered _ _ => before

/-- What a happening makes of the phase of a message at a task. -/
def Happening.moves (task : Tid) (id : Nat) (happening : Happening)
    (before : Phase) : Phase :=
  match happening with
  | delivered actor msgId =>
      if actor = task ∧ msgId = id then .waiting else before
  | noted actor note => if actor = task then note.moves id before else before
  | killed name => if task.process = .worker name then .idle else before
  | rateAnswered _ _ _ => before

def phase (history : History) (task : Tid) (id : Nat) : Phase :=
  history.foldr (Happening.moves task id) .idle

/-- The ordinal of the last delivery of the message to the task, zero when
there was none. -/
def lastOrdinal (task : Tid) (id : Nat) : History → Nat
  | [] => 0
  | .delivered actor msgId :: earlier =>
      if actor = task ∧ msgId = id then deliveries earlier id + 1
      else lastOrdinal task id earlier
  | .rateAnswered _ _ _ :: earlier => lastOrdinal task id earlier
  | .noted _ _ :: earlier => lastOrdinal task id earlier
  | .killed _ :: earlier => lastOrdinal task id earlier

section History

variable {history newer : History} {task actor : Tid} {id : Nat}

@[simp]
theorem phase_cons (happening : Happening) :
    phase (happening :: history) task id =
      happening.moves task id (phase history task id) :=
  rfl

theorem Happening.moves_of_not_concerns {happening : Happening}
    (elsewhere : ¬ happening.Concerns task) (before : Phase) :
    happening.moves task id before = before := by
  cases happening with
  | delivered by_ msgId =>
      exact if_neg fun same => elsewhere same.1
  | rateAnswered by_ currency rate => rfl
  | noted by_ note => exact if_neg elsewhere
  | killed name => exact if_neg elsewhere

/-- What does not concern the task leaves its phases alone. -/
theorem phase_append_of_others
    (others : ∀ happening ∈ newer, ¬ happening.Concerns task) :
    phase (newer ++ history) task id = phase history task id := by
  induction newer with
  | nil => rfl
  | cons happening rest inductionHypothesis =>
      have restOthers : ∀ happening ∈ rest, ¬ happening.Concerns task :=
        fun other member => others other (List.mem_cons_of_mem _ member)
      rw [List.cons_append, phase_cons,
        Happening.moves_of_not_concerns (others _ List.mem_cons_self),
        inductionHypothesis restOthers]

theorem lastOrdinal_append_of_others
    (others : ∀ happening ∈ newer, ¬ happening.Concerns task) :
    lastOrdinal task id (newer ++ history) = lastOrdinal task id history := by
  induction newer with
  | nil => rfl
  | cons happening rest inductionHypothesis =>
      have restOthers : ∀ happening ∈ rest, ¬ happening.Concerns task :=
        fun other member => others other (List.mem_cons_of_mem _ member)
      rw [List.cons_append, ← inductionHypothesis restOthers]
      cases happening with
      | delivered by_ msgId =>
          have elsewhere : ¬ by_ = task := others _ List.mem_cons_self
          exact if_neg fun same => elsewhere same.1
      | rateAnswered by_ currency rate => rfl
      | noted by_ note => rfl
      | killed name => rfl

theorem phase_deliver (ids : List Nat) :
    phase ((ids.map (Happening.delivered actor)).reverse ++ history) task id =
      if actor = task ∧ id ∈ ids then .waiting else phase history task id := by
  induction ids generalizing history with
  | nil => simp
  | cons first rest inductionHypothesis =>
      rw [List.map_cons, List.reverse_cons, List.append_assoc,
        List.singleton_append, inductionHypothesis, phase_cons,
        Happening.moves]
      by_cases mine : actor = task
      · by_cases newest : first = id
        · simp [mine, newest]
        · simp [mine, newest, Ne.symm newest]
      · simp [mine]

theorem lastOrdinal_deliver {ids : List Nat} (nodup : ids.Nodup) :
    lastOrdinal task id
        ((ids.map (Happening.delivered actor)).reverse ++ history) =
      if actor = task ∧ id ∈ ids then deliveries history id + 1
      else lastOrdinal task id history := by
  induction ids generalizing history with
  | nil => simp
  | cons first rest inductionHypothesis =>
      obtain ⟨absent, restNodup⟩ := List.nodup_cons.mp nodup
      rw [List.map_cons, List.reverse_cons, List.append_assoc,
        List.singleton_append, inductionHypothesis restNodup, lastOrdinal]
      by_cases mine : actor = task
      · by_cases newest : first = id
        · rw [newest] at absent
          simp [mine, newest, absent]
        · have counts :
              deliveries (.delivered actor first :: history) id =
                deliveries history id := by
            simp [deliveries, Happening.isDelivery, newest]
          rw [counts]
          simp [mine, newest, Ne.symm newest]
      · simp [mine]

theorem deliveries_le_cons (happening : Happening) (history : History)
    (id : Nat) :
    deliveries history id ≤ deliveries (happening :: history) id :=
  deliveries_le_of_suffix (List.suffix_cons _ _) id

theorem lastOrdinal_le_deliveries (task : Tid) (id : Nat)
    (history : History) :
    lastOrdinal task id history ≤ deliveries history id := by
  induction history with
  | nil => exact Nat.le_refl 0
  | cons happening earlier inductionHypothesis =>
      have grows := deliveries_le_cons happening earlier id
      cases happening with
      | delivered by_ msgId =>
          rw [lastOrdinal]
          split
          case isTrue mine =>
            simp [deliveries, Happening.isDelivery, mine.2]
          case isFalse => omega
      | rateAnswered by_ currency rate =>
          rw [lastOrdinal]
          omega
      | noted by_ note =>
          rw [lastOrdinal]
          omega
      | killed name =>
          rw [lastOrdinal]
          omega

/-- A phase that neither a delivery nor a kill leaves was reached by a note of
the task. -/
theorem noted_of_phase {reached : Phase} (notIdle : reached ≠ .idle)
    (notWaiting : reached ≠ .waiting)
    (current : phase history task id = reached) :
    ∃ note before, .noted task note ∈ history ∧
      note.moves id before = reached ∧ before ≠ reached := by
  induction history with
  | nil => exact absurd current.symm notIdle
  | cons happening earlier inductionHypothesis =>
      by_cases already : phase earlier task id = reached
      · obtain ⟨note, before, member, moved⟩ := inductionHypothesis already
        exact ⟨note, before, List.mem_cons_of_mem _ member, moved⟩
      · rw [phase_cons] at current
        cases happening with
        | delivered by_ msgId =>
            simp only [Happening.moves] at current
            split at current
            · exact absurd current.symm notWaiting
            · exact absurd current already
        | rateAnswered by_ currency rate => exact absurd current already
        | killed name =>
            simp only [Happening.moves] at current
            split at current
            · exact absurd current.symm notIdle
            · exact absurd current already
        | noted by_ note =>
            simp only [Happening.moves] at current
            split at current
            case isFalse => exact absurd current already
            case isTrue mine =>
              rw [mine]
              exact ⟨note, _, List.mem_cons_self, current, already⟩

/-- An ending that a phase shows was noted. -/
theorem noted_of_phase_tried {count : Nat}
    {ended : Except PyException Outcome}
    (current : phase history task id = .tried count ended) :
    .noted task (.processEnded id ended) ∈ history := by
  obtain ⟨note, before, member, moved, changed⟩ :=
    noted_of_phase (by simp) (by simp) current
  cases note with
  | processEnded msgId outcome =>
      simp only [Note.moves] at moved
      split at moved
      case isTrue same =>
        cases moved
        rw [← same]
        exact member
      case isFalse => exact absurd moved changed
  | insertReturned inserted value => exact absurd moved changed
  | answered request response => exact absurd moved changed
  | _ =>
      simp only [Note.moves] at moved
      split at moved
      · cases moved
      · exact absurd moved changed

/-- A reason that a phase shows was noted. -/
theorem noted_of_phase_leaving {reason : String}
    (current : phase history task id = .leaving reason) :
    .noted task (.deadLettering id reason) ∈ history := by
  obtain ⟨note, before, member, moved, changed⟩ :=
    noted_of_phase (by simp) (by simp) current
  cases note with
  | deadLettering msgId text =>
      simp only [Note.moves] at moved
      split at moved
      case isTrue same =>
        cases moved
        rw [← same]
        exact member
      case isFalse => exact absurd moved changed
  | insertReturned inserted value => exact absurd moved changed
  | answered request response => exact absurd moved changed
  | _ =>
      simp only [Note.moves] at moved
      split at moved
      · cases moved
      · exact absurd moved changed

end History

end TxnEvents
