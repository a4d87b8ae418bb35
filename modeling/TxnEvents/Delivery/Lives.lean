import TxnEvents.Delivery.Biography

/-!
# The life of one message

What the biography of a message adds up to: the phase it has at each task, the
ordinals of its deliveries, and how often it was started, stored, failed and
dead-lettered.  Every turn of a run is one of three operations on the life of
the message, or leaves it as it is.
-/

namespace TxnEvents

open Effects Streams App

structure Life where
  phase : Tid → Phase
  /-- The ordinal of the last delivery to each task. -/
  ordinal : Tid → Nat
  deliveries : Nat
  starts : Nat
  successes : Nat
  /-- The calls of `process` that ended in a transient error. -/
  failures : Nat
  letters : Nat
  /-- The dead letters with the reason that deliveries are used up. -/
  exhaustions : Nat

/-! ## Kinds of notes -/

namespace Note

def starts (id : Nat) : Note → Bool
  | processStarted msgId _ => msgId = id
  | _ => false

def succeeds (id : Nat) : Note → Bool
  | processEnded msgId (.ok _) => msgId = id
  | _ => false

def fails (id : Nat) : Note → Bool
  | processEnded msgId (.error error) =>
      decide (msgId = id) && error.cls.isTransient
  | _ => false

def buries (id : Nat) : Note → Bool
  | deadLettering msgId _ => msgId = id
  | _ => false

def exhausts (id : Nat) : Note → Bool
  | deadLettering msgId reason =>
      decide (msgId = id) && decide (reason = exhaustedReason)
  | _ => false

variable {id : Nat} {note : Note}

theorem concerns_of_starts (starts : note.starts id = true) :
    note.concerns id = true := by
  cases note with
  | processStarted msgId count => exact starts
  | _ => cases starts

theorem concerns_of_succeeds (succeeds : note.succeeds id = true) :
    note.concerns id = true := by
  cases note with
  | processEnded msgId ended =>
      cases ended with
      | ok outcome => exact succeeds
      | error error => cases succeeds
  | _ => cases succeeds

theorem concerns_of_fails (fails : note.fails id = true) :
    note.concerns id = true := by
  cases note with
  | processEnded msgId ended =>
      cases ended with
      | ok outcome => cases fails
      | error error => exact (Bool.and_eq_true_iff.mp fails).1
  | _ => cases fails

theorem concerns_of_buries (buries : note.buries id = true) :
    note.concerns id = true := by
  cases note with
  | deadLettering msgId reason => exact buries
  | _ => cases buries

theorem concerns_of_exhausts (exhausts : note.exhausts id = true) :
    note.concerns id = true := by
  cases note with
  | deadLettering msgId reason => exact (Bool.and_eq_true_iff.mp exhausts).1
  | _ => cases exhausts

end Note

/-- A kind of note was made exactly when it is counted. -/
theorem tally_pos_iff {select : Note → Bool} {history : History} :
    0 < tally select history ↔
      ∃ task note, .noted task note ∈ history ∧ select note = true := by
  rw [tally, List.countP_pos_iff]
  constructor
  · rintro ⟨happening, member, selected⟩
    cases happening with
    | noted task note => exact ⟨task, note, member, selected⟩
    | _ => cases selected
  · rintro ⟨task, note, member, selected⟩
    exact ⟨_, member, selected⟩

/-! ## The life that a history tells -/

def life (id : Nat) (history : History) : Life where
  phase := fun task => TxnEvents.phase history task id
  ordinal := fun task => lastOrdinal task id history
  deliveries := TxnEvents.deliveries history id
  starts := tally (Note.starts id) history
  successes := tally (Note.succeeds id) history
  failures := tally (Note.fails id) history
  letters := tally (Note.buries id) history
  exhaustions := tally (Note.exhausts id) history

namespace Life

def newborn : Life where
  phase := fun _ => .idle
  ordinal := fun _ => 0
  deliveries := 0
  starts := 0
  successes := 0
  failures := 0
  letters := 0
  exhaustions := 0

/-- The message is delivered to the task. -/
def deliver (before : Life) (task : Tid) : Life :=
  { before with
    phase := Function.update before.phase task .waiting
    ordinal := Function.update before.ordinal task (before.deliveries + 1)
    deliveries := before.deliveries + 1 }

/-- The task makes a note about the message. -/
def note (before : Life) (task : Tid) : Note → Life
  | .processStarted _ count =>
      { before with
        phase := Function.update before.phase task (.started count)
        starts := before.starts + 1 }
  | .processEnded _ (.ok outcome) =>
      { before with
        phase := Function.update before.phase task
          (.tried (before.phase task).count (.ok outcome))
        successes := before.successes + 1 }
  | .processEnded _ (.error error) =>
      { before with
        phase := Function.update before.phase task
          (.tried (before.phase task).count (.error error))
        failures :=
          before.failures + if error.cls.isTransient = true then 1 else 0 }
  | .deadLettering _ reason =>
      { before with
        phase := Function.update before.phase task (.leaving reason)
        letters := before.letters + 1
        exhaustions :=
          before.exhaustions + if reason = exhaustedReason then 1 else 0 }
  | .finished _ =>
      { before with phase := Function.update before.phase task .idle }
  | _ => before

/-- The worker is killed. -/
def kill (before : Life) (name : Nat) : Life :=
  { before with
    phase := fun task =>
      if task.process = .worker name then .idle else before.phase task }

section Deliver

variable (life : Life) (task : Tid)

@[simp]
theorem deliver_phase_self : (life.deliver task).phase task = .waiting :=
  Function.update_self task _ life.phase

@[simp]
theorem deliver_ordinal_self :
    (life.deliver task).ordinal task = life.deliveries + 1 :=
  Function.update_self task _ life.ordinal

theorem deliver_phase_of_ne {other : Tid} (different : other ≠ task) :
    (life.deliver task).phase other = life.phase other :=
  Function.update_of_ne different _ life.phase

@[simp]
theorem deliver_deliveries :
    (life.deliver task).deliveries = life.deliveries + 1 :=
  rfl

@[simp]
theorem deliver_starts : (life.deliver task).starts = life.starts :=
  rfl

end Deliver

section Note

variable {life : Life} {task : Tid} {note : Note} {id : Nat}

theorem note_phase (concerns : note.concerns id = true) :
    (life.note task note).phase =
      Function.update life.phase task (note.moves id (life.phase task)) := by
  cases note with
  | processEnded msgId ended =>
      have same : msgId = id := of_decide_eq_true concerns
      cases ended with
      | ok outcome => simp only [Life.note, Note.moves, if_pos same]
      | error error => simp only [Life.note, Note.moves, if_pos same]
  | insertReturned inserted value => cases concerns
  | answered request response => cases concerns
  | _ =>
      have same := of_decide_eq_true concerns
      simp only [Life.note, Note.moves, if_pos same]

theorem note_ordinal : (life.note task note).ordinal = life.ordinal := by
  cases note with
  | processEnded msgId ended =>
      cases ended with
      | ok outcome => rfl
      | error error => rfl
  | _ => rfl

theorem note_deliveries :
    (life.note task note).deliveries = life.deliveries := by
  cases note with
  | processEnded msgId ended =>
      cases ended with
      | ok outcome => rfl
      | error error => rfl
  | _ => rfl

end Note

end Life

section Turns

variable {before after : State} {id : Nat} {task : Tid}

theorem life_silent (silent : Silent id before after) :
    life id after.history = life id before.history := by
  simp only [life, silent.phase, silent.lastOrdinal,
    silent.deliveries, silent.tally fun _ => Note.concerns_of_starts,
    silent.tally fun _ => Note.concerns_of_succeeds,
    silent.tally fun _ => Note.concerns_of_fails,
    silent.tally fun _ => Note.concerns_of_buries,
    silent.tally fun _ => Note.concerns_of_exhausts]

/-- The tallies of a life after one more happening. -/
theorem life_adds {happening : Happening}
    (adds : Adds id happening before after) :
    life id after.history = {
      phase := fun task =>
        happening.moves task id ((life id before.history).phase task)
      ordinal := fun task => lastOrdinal task id after.history
      deliveries := (life id before.history).deliveries +
        if happening.isDelivery id = true then 1 else 0
      starts := (life id before.history).starts +
        if happening.notes (Note.starts id) = true then 1 else 0
      successes := (life id before.history).successes +
        if happening.notes (Note.succeeds id) = true then 1 else 0
      failures := (life id before.history).failures +
        if happening.notes (Note.fails id) = true then 1 else 0
      letters := (life id before.history).letters +
        if happening.notes (Note.buries id) = true then 1 else 0
      exhaustions := (life id before.history).exhaustions +
        if happening.notes (Note.exhausts id) = true then 1 else 0 } := by
  simp only [life, adds.phase, adds.deliveries,
    adds.tally fun _ => Note.concerns_of_starts,
    adds.tally fun _ => Note.concerns_of_succeeds,
    adds.tally fun _ => Note.concerns_of_fails,
    adds.tally fun _ => Note.concerns_of_buries,
    adds.tally fun _ => Note.concerns_of_exhausts]

/-- A phase that moves at one task only. -/
theorem phase_update (task : Tid) (phases : Tid → Phase)
    (moved : Phase → Phase) :
    (fun other => if task = other then moved (phases other) else phases other) =
      Function.update phases task (moved (phases task)) := by
  funext other
  by_cases same : task = other
  · rw [← same, if_pos rfl, Function.update_self]
  · rw [if_neg same, Function.update_of_ne (Ne.symm same)]

theorem life_delivered (adds : Adds id (.delivered task id) before after) :
    life id after.history = (life id before.history).deliver task := by
  have ordinals : (fun other => lastOrdinal other id after.history) =
      Function.update (fun other => lastOrdinal other id before.history) task
        (deliveries before.history id + 1) := by
    funext other
    rw [adds.lastOrdinal_delivered]
    by_cases same : task = other
    · rw [← same, if_pos rfl, Function.update_self]
    · rw [if_neg same, Function.update_of_ne (Ne.symm same)]
  have phases := phase_update task (life id before.history).phase
    fun _ => .waiting
  simp only [life_adds adds, ordinals, Happening.moves, and_true, phases,
    Happening.isDelivery, Happening.notes, decide_true, if_true]
  rfl

theorem life_noted {note : Note} (concerns : note.concerns id = true)
    (adds : Adds id (.noted task note) before after) :
    life id after.history = (life id before.history).note task note := by
  have ordinals : (fun other => lastOrdinal other id after.history) =
      fun other => lastOrdinal other id before.history :=
    funext fun other => adds.lastOrdinal rfl other
  have phases := phase_update task (life id before.history).phase
    (note.moves id)
  simp only [life_adds adds, ordinals, Happening.moves, phases]
  cases note with
  | processStarted msgId count =>
      rw [of_decide_eq_true concerns]
      simp [Happening.isDelivery, Happening.notes, Note.starts, Note.succeeds,
        Note.fails, Note.buries, Note.exhausts, Note.moves, Life.note]
      rfl
  | processEnded msgId ended =>
      rw [of_decide_eq_true concerns]
      cases ended with
      | ok outcome =>
          simp [Happening.isDelivery, Happening.notes, Note.starts,
            Note.succeeds, Note.fails, Note.buries, Note.exhausts, Note.moves,
            Life.note]
          rfl
      | error error =>
          simp [Happening.isDelivery, Happening.notes, Note.starts,
            Note.succeeds, Note.fails, Note.buries, Note.exhausts, Note.moves,
            Life.note]
          rfl
  | deadLettering msgId reason =>
      rw [of_decide_eq_true concerns]
      simp [Happening.isDelivery, Happening.notes, Note.starts, Note.succeeds,
        Note.fails, Note.buries, Note.exhausts, Note.moves, Life.note]
      rfl
  | finished msgId =>
      rw [of_decide_eq_true concerns]
      simp [Happening.isDelivery, Happening.notes, Note.starts, Note.succeeds,
        Note.fails, Note.buries, Note.exhausts, Note.moves, Life.note]
      rfl
  | insertReturned inserted value => cases concerns
  | answered request response => cases concerns

theorem life_killed {name : Nat} (adds : Adds id (.killed name) before after) :
    life id after.history = (life id before.history).kill name := by
  have ordinals : (fun other => lastOrdinal other id after.history) =
      fun other => lastOrdinal other id before.history :=
    funext fun other => adds.lastOrdinal rfl other
  simp only [life_adds adds, ordinals, Happening.moves, Happening.isDelivery,
    Happening.notes]
  rfl

end Turns

end TxnEvents
