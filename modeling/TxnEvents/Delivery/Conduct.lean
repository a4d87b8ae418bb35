import TxnEvents.Delivery.Invariant
import TxnEvents.Delivery.Phases

/-!
# The conduct of the tasks

What every command of a task respects, told from the phases of its messages:
it processes what is waiting, ends what it started, dead-letters only with an
excuse, lets go of a message that is retired or may be tried again, and reads
or claims only when nothing is left in hand.  `Conduct` holds in all runs;
with `acks`, in those in which no acknowledgement is reported as failed.
-/

namespace TxnEvents

open Effects Arith Python Streams App

/-! ## Conduct -/

def Readable (world : World) (state : State) (id : Nat) : Prop :=
  ∃ fields event, state.entryFields id = some fields ∧
    parseFields world.unicode world.json fields = .ok event

def Unreadable (world : World) (state : State) (id : Nat) : Prop :=
  ∃ fields error, state.entryFields id = some fields ∧
    parseFields world.unicode world.json fields = .error error

theorem not_readable_of_unreadable {world : World} {state : State} {id : Nat}
    (unreadable : Unreadable world state id) : ¬ Readable world state id := by
  rintro ⟨fields, event, entry, parsed⟩
  obtain ⟨same, error, found, failed⟩ := unreadable
  rw [entry] at found
  cases found
  rw [parsed] at failed
  cases failed

/-- The task has nothing in hand. -/
def Resting (state : State) (task : Tid) : Prop :=
  ∀ id, phase state.history task id = .idle

/-- The phases in which a message may be dead-lettered, with the reason. -/
inductive Excused (world : World) (acks : Prop) (state : State) (id : Nat)
    (reason : String) : Phase → Prop
  | unreadable : Unreadable world state id → reason ≠ exhaustedReason →
      Excused world acks state id reason .waiting
  | permanent {count : Nat} {error : PyException} :
      error.cls.isPermanent = true → reason = error.text →
        Excused world acks state id reason (.tried count (.error error))
  | exhausted {count : Nat} {error : PyException} :
      error.cls.isTransient = true → world.settings.maxDeliveries ≤ count →
        Excused world acks state id reason (.tried count (.error error))
  | unexpected {count : Nat} {error : PyException} :
      reason ≠ exhaustedReason →
        Excused world acks state id reason (.tried count (.error error))
  | unacknowledged {count : Nat} {outcome : Outcome} :
      ¬ acks → reason ≠ exhaustedReason →
        Excused world acks state id reason (.tried count (.ok outcome))

/-- The phases in which a failure is counted. -/
inductive Doomed : Phase → Prop
  | tried {count : Nat} {error : PyException} :
      Doomed (.tried count (.error error))
  | leaving {reason : String} : Doomed (.leaving reason)

/-- When a task may let go of a message. -/
inductive Released (world : World) (state : State) (id : Nat) : Phase → Prop
  | retired {current : Phase} :
      state.Retired id → Released world state id current
  | transient {count : Nat} {error : PyException} :
      error.cls.isTransient = true → count < world.settings.maxDeliveries →
        Released world state id (.tried count (.error error))

/-- What the task must have in hand to start processing. -/
structure MayStart (world : World) (state : State) (task : Tid) (id : Nat)
    (count : Nat) : Prop where
  waiting : phase state.history task id = .waiting
  readable : Readable world state id
  lower : state.Retired id ∨ lastOrdinal task id state.history ≤ count
  upper : count ≤ deliveries state.history id

def Conduct (world : World) (acks : Prop) (state : State) (task : Tid) :
    Command → Prop
  | .xreadgroup _ => (∃ name, task = .consume name) ∧ Resting state task
  | .xautoclaim _ _ _ => (∃ name, task = .reclaim name) ∧ Resting state task
  | .xaddDlq origin fields => ∃ reason, ∃ original : Dict,
      phase state.history task origin = .leaving reason ∧
        fields = original.set "reason" reason
  | .inc (.eventsFailed _) => ∃ id, Doomed (phase state.history task id)
  | .observe (.processStarted id count) => MayStart world state task id count
  | .observe (.processEnded id _) =>
      ∃ count, phase state.history task id = .started count
  | .observe (.deadLettering id reason) =>
      Excused world acks state id reason (phase state.history task id)
  | .observe (.finished id) =>
      Released world state id (phase state.history task id)
  | _ => True

/-- Runs in which, if `acks`, no acknowledgement is reported as failed. -/
def acking (acks : Prop) : AppPermit where
  command := fun _ _ command choice =>
    match command with
    | .xack _ => acks → choice.fate = .ok
    | _ => True
  env := fun _ _ => True

theorem acking_false (state : State) (task : Tid) (command : Command)
    (choice : Choice) : (acking False).command state task command choice := by
  cases command with
  | xack msgId => exact fun impossible => impossible.elim
  | _ => exact trivial

def conduct (world : World) (acks : Prop) : Discipline (system world) where
  permit := acking acks
  inv := Counted
  owes := Conduct world acks
  rely := Others
  rely_refl := Others.refl
  rely_trans := fun _ _ _ _ => Others.trans

/-! ## What a task can tell about its messages -/

/-- The phases of the task's messages and the ordinals of their last
deliveries. -/
structure Stands (task : Tid) (view : Nat → Phase) (ordinals : Nat → Nat)
    (state : State) : Prop where
  phase : ∀ id, phase state.history task id = view id
  ordinal : ∀ id, lastOrdinal task id state.history = ordinals id

theorem Stands.others {task : Tid} {view : Nat → Phase} {ordinals : Nat → Nat}
    {before after : State} (stands : Stands task view ordinals before)
    (others : Others task before after) :
    Stands task view ordinals after := by
  obtain ⟨newer, equality, elsewhere⟩ := others.own
  constructor
  · intro id
    rw [equality, phase_append_of_others elsewhere]
    exact stands.phase id
  · intro id
    rw [equality, lastOrdinal_append_of_others elsewhere]
    exact stands.ordinal id

/-- What a command makes of the phases of the task that issues it. -/
def Command.moves (id : Nat) (before : Phase) : Command → Phase
  | observe note => note.moves id before
  | _ => before

section Exec

variable {world : World} {state after : State} {task : Tid}
  {command : Command} {choice : Choice}
  {reply : Except PyException command.Reply}

theorem phase_exec (other : command.delivers = false)
    (taken : exec world state task command choice = some (reply, after))
    (id : Nat) :
    phase after.history task id =
      command.moves id (phase state.history task id) := by
  by_cases observed : ∃ note, command = .observe note
  · obtain ⟨note, rfl⟩ := observed
    cases taken
    rw [history_observe, phase_cons, Happening.moves, if_pos rfl]
    rfl
  · have still : command.moves id (phase state.history task id) =
        phase state.history task id := by
      cases command with
      | observe note => exact absurd ⟨note, rfl⟩ observed
      | _ => rfl
    rw [still]
    rcases history_cases other taken with
      same | ⟨currency, rate, _, _, equality⟩ | ⟨note, issued, _⟩
    · rw [same]
    · rw [equality, phase_cons]
      rfl
    · exact absurd ⟨note, issued⟩ observed

theorem lastOrdinal_exec (other : command.delivers = false)
    (taken : exec world state task command choice = some (reply, after))
    (id : Nat) :
    lastOrdinal task id after.history = lastOrdinal task id state.history := by
  rcases history_cases other taken with
    same | ⟨currency, rate, _, _, equality⟩ | ⟨note, _, equality⟩
  · rw [same]
  · rw [equality, lastOrdinal]
  · rw [equality, lastOrdinal]

theorem Stands.exec {view : Nat → Phase} {ordinals : Nat → Nat}
    (stands : Stands task view ordinals state)
    (other : command.delivers = false)
    (taken : exec world state task command choice = some (reply, after)) :
    Stands task (fun id => command.moves id (view id)) ordinals after := by
  constructor
  · intro id
    rw [phase_exec other taken, stands.phase]
  · intro id
    rw [lastOrdinal_exec other taken, stands.ordinal]

end Exec

/-! ## Proof rules -/

/-- The commands that conduct does not speak of and that move no phase. -/
def Command.Plain : Command → Prop
  | xreadgroup _ => False
  | xautoclaim _ _ _ => False
  | xaddDlq _ _ => False
  | inc (.eventsFailed _) => False
  | observe (.insertReturned _ _) => True
  | observe (.answered _ _) => True
  | observe _ => False
  | _ => True

theorem Command.Plain.delivers {command : Command} (plain : command.Plain) :
    command.delivers = false := by
  cases command with
  | xreadgroup count => cases plain
  | xautoclaim minIdleTime startId count => cases plain
  | _ => rfl

theorem Command.Plain.moves {command : Command} (plain : command.Plain)
    (id : Nat) (before : Phase) : command.moves id before = before := by
  cases command with
  | observe note =>
      cases note with
      | insertReturned inserted value => rfl
      | answered request response => rfl
      | _ => cases plain
  | _ => rfl

theorem Command.Plain.conduct {command : Command} (plain : command.Plain)
    (world : World) (acks : Prop) (state : State) (task : Tid) :
    Conduct world acks state task command := by
  cases command with
  | xreadgroup count => cases plain
  | xautoclaim minIdleTime startId count => cases plain
  | xaddDlq origin fields => cases plain
  | inc counter =>
      cases counter with
      | eventsFailed kind => cases plain
      | _ => exact trivial
  | observe note =>
      cases note with
      | insertReturned inserted value => exact trivial
      | answered request response => exact trivial
      | _ => cases plain
  | _ => exact trivial

section Rules

variable {world : World} {acks : Prop} {task : Tid} {view : Nat → Phase}
  {ordinals : Nat → Nat} {holds : State → Prop}

/-- The task's own view together with a lasting assertion. -/
def Knows (task : Tid) (view : Nat → Phase) (ordinals : Nat → Nat)
    (holds : State → Prop) (state : State) : Prop :=
  Stands task view ordinals state ∧ holds state

theorem Knows.stable (lasting : Lasting holds) :
    (conduct world acks).Stable task (Knows task view ordinals holds) := by
  intro before after others _ knows
  exact ⟨knows.1.others others,
    lasting before after others.toGrows knows.2⟩

theorem conduct_guarantee {before after : State} {command : Command}
    {choice : Choice} {reply : Except PyException command.Reply}
    (counted : Counted before) (owes : Conduct world acks before task command)
    (taken : exec world before task command choice = some (reply, after)) :
    (conduct world acks).Guarantee task command before after :=
  ⟨owes, exec_counted counted taken,
    fun _ different => exec_others different taken⟩

/-- A command that delivers nothing, from what the task knows. -/
theorem wp_knowing {command : Command}
    {post : Except PyException command.Reply → State → Prop} {state : State}
    (lasting : Lasting holds) (knows : Knows task view ordinals holds state)
    (other : command.delivers = false)
    (owes : ∀ before, Counted before → Knows task view ordinals holds before →
      Conduct world acks before task command)
    (effect : ∀ before choice reply after, Counted before →
      Knows task view ordinals holds before →
        (acking acks).command before task command choice →
          exec world before task command choice = some (reply, after) →
            Knows task (fun id => command.moves id (view id)) ordinals holds
                after →
              post reply after) :
    (conduct world acks).wp task (ask command) post state := by
  refine wp_ask (Knows.stable lasting) knows ?_
  intro before choice reply after counted known permitted taken
  refine ⟨conduct_guarantee counted (owes before counted known) taken, ?_⟩
  exact effect before choice reply after counted known permitted taken
    ⟨known.1.exec other taken,
      lasting before after (exec_grows taken) known.2⟩

/-- A note, which cannot fail. -/
def NotePost (task : Tid) (view : Nat → Phase) (ordinals : Nat → Nat)
    (holds : State → Prop) (note : Note) :
    Except PyException Unit → State → Prop
  | .ok (), state =>
      Knows task (fun id => note.moves id (view id)) ordinals holds state
  | .error _, _ => False

theorem wp_note {note : Note} {state : State} (lasting : Lasting holds)
    (knows : Knows task view ordinals holds state)
    (owes : ∀ before, Counted before → Knows task view ordinals holds before →
      Conduct world acks before task (.observe note)) :
    (conduct world acks).wp task (App.observe note)
      (NotePost task view ordinals holds note) state := by
  refine wp_knowing lasting knows rfl owes ?_
  intro before choice reply after _ _ _ taken left
  have replied : reply = .ok () := by
    cases taken
    rfl
  rw [replied]
  exact left

/-- A plain command keeps what the task knows. -/
theorem wp_plain {command : Command} {state : State} (plain : command.Plain)
    (lasting : Lasting holds) (knows : Knows task view ordinals holds state) :
    (conduct world acks).wp task (ask command)
      (Calm (Knows task view ordinals holds)) state := by
  refine wp_knowing lasting knows plain.delivers ?_ ?_
  · intro before _ _
    exact plain.conduct world acks before task
  · intro before choice reply after _ _ _ taken left
    have kept : Knows task view ordinals holds after := by
      have same : (fun id => command.moves id (view id)) = view :=
        funext fun id => plain.moves id (view id)
      rwa [same] at left
    cases reply with
    | ok value => exact kept
    | error error => exact ⟨kept, error_foreign taken⟩

/-- A program of plain commands keeps what the task knows. -/
theorem wp_of_plain {α : Type} {body : App α} {state : State}
    (uses : body.Uses Command.Plain) (lasting : Lasting holds)
    (knows : Knows task view ordinals holds state) :
    (conduct world acks).wp task body
      (fun _ after => Knows task view ordinals holds after) state := by
  refine Discipline.wp_of_uses (Knows.stable lasting) ?_ uses knows
  intro command before choice reply after plain counted known _ taken
  have owes := plain.conduct world acks before task
  refine ⟨conduct_guarantee counted owes taken, ?_,
    lasting before after (exec_grows taken) known.2⟩
  have same : (fun id => command.moves id (view id)) = view :=
    funext fun id => plain.moves id (view id)
  have left := known.1.exec plain.delivers taken
  rwa [same] at left

end Rules

end TxnEvents
