import TxnEvents.Delivery.Fates

/-!
# Only a processing failure dead-letters

Runs in which every entry parses and every call of `process` succeeds.  As
long as no acknowledgement is reported as failed, nothing is dead-lettered and
no failure is counted in them, whatever else fails and whoever is killed.
-/

namespace TxnEvents

open Effects Arith Python Streams App

/-- Every entry that was ever written to the stream parses. -/
def AllParse (world : World) (state : State) : Prop :=
  ∀ id < state.redis.stream.entries.length, Readable world state id

/-- Every call of `process` that has ended has returned. -/
def AllSucceed (state : State) : Prop :=
  ∀ task id error,
    .noted task (.processEnded id (.error error)) ∉ state.history

theorem Grows.entryFields_eq {before after : State}
    (grows : Grows before after) {id : Nat}
    (within : id < before.redis.stream.entries.length) :
    after.entryFields id = before.entryFields id := by
  obtain ⟨newer, equality⟩ := grows.entries
  rw [State.entryFields, State.entryFields, ← equality,
    List.getElem?_append_left within]

theorem AllParse.of_grows {world : World} {before after : State}
    (grows : Grows before after) (parses : AllParse world after) :
    AllParse world before := by
  intro id within
  have longer := grows.entries.length_le
  obtain ⟨fields, event, entry, parsed⟩ :=
    parses id (Nat.lt_of_lt_of_le within longer)
  rw [grows.entryFields_eq within] at entry
  exact ⟨fields, event, entry, parsed⟩

theorem AllSucceed.of_grows {before after : State}
    (grows : Grows before after) (succeeds : AllSucceed after) :
    AllSucceed before :=
  fun task id error member =>
    succeeds task id error (grows.history.subset member)

/-- An entry that is there parses. -/
theorem AllParse.not_unreadable {world : World} {state : State} {id : Nat}
    (parses : AllParse world state) : ¬ Unreadable world state id := by
  intro unreadable
  have entry := unreadable
  obtain ⟨fields, error, entry, _⟩ := entry
  obtain ⟨wire, found, _⟩ := Option.bind_eq_some_iff.mp entry
  have within := (List.getElem?_eq_some_iff.mp found).1
  exact not_readable_of_unreadable unreadable (parses id within)

/-! ## The invariant -/

/-- No task has failed at the message, and nobody has dead-lettered it. -/
structure Unharmed (life : Life) : Prop where
  undoomed : ∀ task, ¬ Doomed (life.phase task)
  letters : life.letters = 0

namespace Unharmed

variable {present : Life} {task : Tid}

/-- A phase in which nothing has failed. -/
theorem update {after : Life} {reached : Phase} (unharmed : Unharmed present)
    (phases : after.phase = Function.update present.phase task reached)
    (fine : ¬ Doomed reached) (letters : after.letters = 0) :
    Unharmed after where
  undoomed := by
    intro other
    rw [phases]
    by_cases same : other = task
    · rw [same, Function.update_self]
      exact fine
    · rw [Function.update_of_ne same]
      exact unharmed.undoomed other
  letters := letters

theorem deliver (unharmed : Unharmed present) (task : Tid) :
    Unharmed (present.deliver task) := by
  have phases : (present.deliver task).phase =
      Function.update present.phase task .waiting := rfl
  apply unharmed.update phases
  · intro doomed
    cases doomed
  · exact unharmed.letters

theorem kill (unharmed : Unharmed present) (name : Nat) :
    Unharmed (present.kill name) where
  undoomed := by
    intro other doomed
    simp only [Life.kill] at doomed
    split at doomed
    · cases doomed
    · exact unharmed.undoomed other doomed
  letters := unharmed.letters

/-- With acknowledgements that succeed there is no excuse to dead-letter. -/
theorem not_excused {world : World} {state : State} {id : Nat}
    {reason : String} (unharmed : Unharmed (life id state.history))
    (parses : AllParse world state) :
    ¬ Excused world True state id reason (phase state.history task id) := by
  intro excused
  have undoomed := unharmed.undoomed task
  change ¬ Doomed (phase state.history task id) at undoomed
  generalize phase state.history task id = reached at excused undoomed
  cases excused with
  | unreadable unreadable => exact parses.not_unreadable unreadable
  | permanent => exact undoomed .tried
  | exhausted => exact undoomed .tried
  | unexpected => exact undoomed .tried
  | unacknowledged unacknowledged => exact unacknowledged trivial

theorem noted {world : World} {state : State} {id : Nat} {note : Note}
    (unharmed : Unharmed (life id state.history))
    (parses : AllParse world state)
    (succeeds : ∀ error, note ≠ .processEnded id (.error error))
    (concerns : note.concerns id = true)
    (conduct : Conduct world True state task (.observe note)) :
    Unharmed ((life id state.history).note task note) := by
  have letters := unharmed.letters
  have phases : ((life id state.history).note task note).phase =
      Function.update (life id state.history).phase task
        (note.moves id ((life id state.history).phase task)) :=
    Life.note_phase concerns
  cases note with
  | processStarted msgId count =>
      rw [Note.moves, if_pos (of_decide_eq_true concerns)] at phases
      apply unharmed.update phases
      · intro doomed
        cases doomed
      · exact letters
  | processEnded msgId ended =>
      rw [Note.moves, if_pos (of_decide_eq_true concerns)] at phases
      cases ended with
      | error error =>
          have same : msgId = id := of_decide_eq_true concerns
          exact absurd (by rw [same]) (succeeds error)
      | ok outcome =>
          apply unharmed.update phases
          · intro doomed
            cases doomed
          · exact letters
  | deadLettering msgId reason =>
      cases of_decide_eq_true concerns
      exact absurd conduct (unharmed.not_excused parses)
  | finished msgId =>
      rw [Note.moves, if_pos (of_decide_eq_true concerns)] at phases
      apply unharmed.update phases
      · intro doomed
        cases doomed
      · exact letters
  | insertReturned inserted value => cases concerns
  | answered request response => cases concerns

end Unharmed

section Runs

variable {world : World} {config : AppConfig}

theorem reaches_unharmed (reaches : Reaches world (acking True) config)
    (id : Nat) :
    AllParse world config.shared → AllSucceed config.shared →
      Unharmed (life id config.shared.history) := by
  let holds (state : State) : Prop :=
    AllParse world state → AllSucceed state →
      Unharmed (life id state.history)
  change holds config.shared
  refine turn_invariant id (fun _ _ _ _ permitted => permitted) ?_ ?_ reaches
  · intro _ _
    have undoomed : ∀ task, ¬ Doomed ((life id State.initial.history).phase task) := by
      intro task doomed
      cases doomed
    exact ⟨undoomed, rfl⟩
  · intro before after _ grows turn held parses succeeds
    have parsesBefore := parses.of_grows grows
    have unharmed := held parsesBefore (succeeds.of_grows grows)
    cases turn with
    | quiet silent pending =>
        rw [life_silent silent]
        exact unharmed
    | read running resting fresh pending adds =>
        rw [life_delivered adds]
        exact unharmed.deliver _
    | claim running resting permitted claimed wasPending pending adds =>
        rw [life_delivered adds]
        exact unharmed.deliver _
    | killed permitted pending adds =>
        rw [life_killed adds]
        exact unharmed.kill _
    | @noted task note concerns conduct pending adds =>
        rw [life_noted concerns adds]
        apply unharmed.noted parsesBefore _ concerns conduct
        intro error same
        apply succeeds task id error
        have told : Happening.noted task note ∈ biography id after.history := by
          rw [adds]
          exact List.mem_cons_self
        rw [← same]
        exact List.mem_of_mem_filter told

/-! ## Failure counters -/

/-- No process has counted a failed event. -/
def NoFailureCounted (state : State) : Prop :=
  ∀ process kind, (state.memory process).counters (.eventsFailed kind) = 0

/-- Only the increment itself changes the counter of a kind of failure. -/
theorem noFailureCounted_exec {state after : State} {task : Tid}
    {command : Command} {choice : Choice}
    {reply : Except PyException command.Reply}
    (other : ∀ kind, command ≠ .inc (.eventsFailed kind))
    (taken : exec world state task command choice = some (reply, after))
    (none : NoFailureCounted state) : NoFailureCounted after := by
  have localOnly : ∀ memory : LocalState,
      (∀ kind, memory.counters (.eventsFailed kind) =
        (state.memory task.process).counters (.eventsFailed kind)) →
        NoFailureCounted (state.setLocal task.process memory) := by
    intro memory same process kind
    by_cases mine : process = task.process
    · rw [mine]
      simp only [State.setLocal, Function.update_self]
      rw [same kind]
      exact none task.process kind
    · simp only [State.setLocal, Function.update_of_ne mine]
      exact none process kind
  cases command with
  | inc counter =>
      cases taken
      apply localOnly
      intro kind
      have different : Counter.eventsFailed kind ≠ counter := by
        intro same
        exact other kind (by rw [same])
      simp only [Function.update_of_ne different]
  | cacheSet currency rate expiresAt =>
      cases taken
      exact localOnly _ fun _ => rfl
  | monotonic =>
      simp only [exec, TxnEvents.monotonic] at taken
      split at taken
      · cases taken
      · cases taken
        exact localOnly _ fun _ => rfl
  | _ =>
      intro process kind
      rw [memory_of_not_isLocal rfl taken]
      exact none process kind

theorem noFailureCounted_happen {event : Event} {before after : State}
    {tasks tasksAfter : AppTasks}
    (happened : happen world event before tasks = some (after, tasksAfter))
    (none : NoFailureCounted before) : NoFailureCounted after := by
  cases event with
  | ask number request =>
      simp only [happen] at happened
      split at happened
      · cases happened
        exact none
      · cases happened
  | startWorker name =>
      simp only [happen] at happened
      split at happened
      · cases happened
        intro process kind
        by_cases same : process = .worker name
        · simp only [State.setLocal, same, Function.update_self]
          rfl
        · simp only [State.setLocal, Function.update_of_ne same]
          exact none process kind
      · cases happened
  | hangUp number =>
      cases happened
      exact none
  | kill name =>
      cases happened
      exact none
  | tick milliseconds =>
      cases happened
      exact none
  | inject fields =>
      cases happened
      exact none

theorem reaches_noFailureCounted
    (reaches : Reaches world (acking True) config) :
    AllParse world config.shared → AllSucceed config.shared →
      NoFailureCounted config.shared := by
  let holds (state : State) : Prop :=
    AllParse world state → AllSucceed state → NoFailureCounted state
  have within : ∀ state task command choice,
      (acking True).command state task command choice →
        (acking True).command state task command choice :=
    fun _ _ _ _ permitted => permitted
  have good : ∀ reached, Reaches world (acking True) reached →
      (conduct world True).Good Rests reached :=
    fun _ earlier => reaches_good within earlier
  change holds config.shared
  refine Discipline.invariant good within ?_ ?_ ?_ reaches
  · intro _ _ process kind
    rfl
  · intro before task command resume choice reply after earlier _ _ _ owes
      taken held parses succeeds
    have grows := exec_grows taken
    have parsesBefore := parses.of_grows grows
    have succeedsBefore := succeeds.of_grows grows
    refine noFailureCounted_exec ?_ taken (held parsesBefore succeedsBefore)
    intro kind same
    rw [same] at owes
    obtain ⟨id, doomed⟩ := owes
    exact (reaches_unharmed earlier id parsesBefore succeedsBefore).undoomed
      task doomed
  · intro before event after tasksAfter _ _ _ happened held parses succeeds
    have grows := happen_grows happened
    exact noFailureCounted_happen happened
      (held (parses.of_grows grows) (succeeds.of_grows grows))

/-- When every entry parses, every call of `process` succeeds and no
acknowledgement is reported as failed, nothing is dead-lettered and no event
is counted as failed. -/
theorem nothing_dead_lettered (reaches : Reaches world (acking True) config)
    (parses : AllParse world config.shared)
    (succeeds : AllSucceed config.shared) :
    config.shared.redis.deadLetters = [] ∧
      NoFailureCounted config.shared := by
  refine ⟨?_, reaches_noFailureCounted reaches parses succeeds⟩
  apply List.eq_nil_iff_forall_not_mem.mpr
  intro letter member
  have letters := letters_pos_of_buried reaches ⟨letter, member, rfl⟩
  have none :=
    (reaches_unharmed reaches letter.origin parses succeeds).letters
  omega

end Runs

/-! ## Runs about one event -/

/-- Whether all entries of the stream parse. -/
def parsing (world : World) (state : State) : Bool :=
  (List.range state.redis.stream.entries.length).all fun id =>
    match state.entryFields id with
    | some fields => (parseFields world.unicode world.json fields).isOk
    | none => false

/-- Whether no call of `process` has failed. -/
def succeeding (state : State) : Bool :=
  state.history.all fun happening =>
    match happening with
    | .noted _ (.processEnded _ (.error _)) => false
    | _ => true

theorem allParse_of_parsing {world : World} {state : State}
    (shown : parsing world state = true) : AllParse world state := by
  intro id within
  have here := List.all_eq_true.mp shown id (List.mem_range.mpr within)
  split at here
  case h_1 fields entry =>
    cases parsed : parseFields world.unicode world.json fields with
    | ok event => exact ⟨fields, event, entry, parsed⟩
    | error error =>
        rw [parsed] at here
        cases here
  case h_2 => cases here

theorem allSucceed_of_succeeding {state : State}
    (shown : succeeding state = true) : AllSucceed state := by
  intro task id error member
  have here := List.all_eq_true.mp shown _ member
  cases here

/-- Acknowledgements succeed. -/
def acknowledging : AppGuard where
  command _ _ command choice :=
    match command, choice.fate with
    | .xack _, .ok => true
    | .xack _, _ => false
    | _, _ => true
  env _ _ := true

theorem respects_acknowledging : acknowledging.Respects (acking True) where
  command := by
    intro state task command choice passed
    cases command with
    | xack msgId =>
        intro _
        cases fate : choice.fate with
        | ok => rfl
        | failedBefore raised =>
            simp only [acknowledging, fate] at passed
            cases passed
        | failedAfter raised =>
            simp only [acknowledging, fate] at passed
            cases passed
    | _ => exact trivial
  env := fun _ _ _ => trivial

/-- The connection to Redis breaks. -/
def connectionLost : Choice :=
  { fate := .failedBefore
      ⟨{ cls := .redisError, text := "Connection closed by server." }, rfl⟩ }

/-- The worker is killed when it has stored the coffee.  The next one loses a
read, claims the coffee and finds the row. -/
def storeAndDie : List AppAction :=
  post 0 coffee {} ++ launch 0 ++
    steps (.consume 0) 9 (answering (.finite false 11 (-1))) ++
      [.env (.kill 0), .env (.tick 15000)] ++ launch 1 ++
        [.run (.consume 1) connectionLost] ++
          steps (.reclaim 1) 16 (answering (.finite false 11 (-1)))

theorem nothing_dead_lettered_coffee :
    ∃ config, Reaches (coffeeWorld unbounded) (acking True) config ∧
      .killed 0 ∈ config.shared.history ∧
        Succeeded config.shared 0 ∧ config.shared.redis.deadLetters = [] ∧
          NoFailureCounted config.shared := by
  have taken : ((system (coffeeWorld unbounded)).run acknowledging start
      storeAndDie).any
        (fun config =>
          config.shared.history.contains (.killed 0) &&
          (config.shared.history.contains
              (.noted (.reclaim 1) (.processEnded 0 (.ok .duplicate))) &&
            (parsing (coffeeWorld unbounded) config.shared &&
              succeeding config.shared))) =
      true := by decide +kernel
  obtain ⟨config, reaches, shown⟩ :=
    reaches_of_run respects_acknowledging taken
  obtain ⟨killed, facts⟩ := Bool.and_eq_true_iff.mp shown
  obtain ⟨noted, rest⟩ := Bool.and_eq_true_iff.mp facts
  obtain ⟨parses, succeeds⟩ := Bool.and_eq_true_iff.mp rest
  exact ⟨config, reaches, List.contains_iff_mem.mp killed,
    ⟨.reclaim 1, .duplicate, List.contains_iff_mem.mp noted⟩,
    nothing_dead_lettered reaches (allParse_of_parsing parses)
      (allSucceed_of_succeeding succeeds)⟩

/-- An event is stored, and its acknowledgement fails once. -/
def failToAcknowledge : List AppAction :=
  post 0 coffee {} ++ launch 0 ++
    steps (.consume 0) 11 (answering (.finite false 11 (-1))) ++
      [.run (.consume 0) connectionLost] ++ steps (.consume 0) 4 {}

/-- A failed acknowledgement of an event that was stored dead-letters it and
counts it as failed. -/
theorem failed_ack_dead_letters :
    ∃ config, Reaches (coffeeWorld unbounded) Permit.any config ∧
      AllParse (coffeeWorld unbounded) config.shared ∧
        AllSucceed config.shared ∧ InTable "coffee" config.shared ∧
          config.shared.redis.deadLetters ≠ [] ∧
            (config.shared.memory (.worker 0)).counters
              (.eventsFailed .unexpected) = 1 := by
  have taken : ((system (coffeeWorld unbounded)).run Guard.any start
      failToAcknowledge).any
        (fun config =>
          (parsing (coffeeWorld unbounded) config.shared &&
              succeeding config.shared) &&
            (decide (InTable "coffee" config.shared) &&
              (!config.shared.redis.deadLetters.isEmpty &&
                decide ((config.shared.memory (.worker 0)).counters
                  (.eventsFailed .unexpected) = 1)))) =
      true := by decide +kernel
  obtain ⟨config, reaches, shown⟩ := reaches_of_run respects_any taken
  obtain ⟨records, rest⟩ := Bool.and_eq_true_iff.mp shown
  obtain ⟨parses, succeeds⟩ := Bool.and_eq_true_iff.mp records
  obtain ⟨stored, failed⟩ := Bool.and_eq_true_iff.mp rest
  obtain ⟨lettered, counted⟩ := Bool.and_eq_true_iff.mp failed
  refine ⟨config, reaches, allParse_of_parsing parses,
    allSucceed_of_succeeding succeeds, of_decide_eq_true stored, ?_,
    of_decide_eq_true counted⟩
  intro none
  rw [none] at lettered
  cases lettered

end TxnEvents
