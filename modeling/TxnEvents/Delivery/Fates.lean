import TxnEvents.Delivery.Exclusive
import TxnEvents.Delivery.NoLoss

/-!
# The two fates of a message

What a dead letter for used-up deliveries tells about the attempts, and when
success and dead-lettering exclude each other.
-/

namespace TxnEvents

open Effects Arith Python Streams App

/-- A delivery of the message was processed, or found a duplicate. -/
def Succeeded (state : State) (id : Nat) : Prop :=
  ∃ task outcome, .noted task (.processEnded id (.ok outcome)) ∈ state.history

/-- A delivery of the message wrote it to the dead-letter stream. -/
def Buried (state : State) (id : Nat) : Prop :=
  ∃ letter ∈ state.redis.deadLetters, letter.origin = id

/-- How many calls of `process` for the message ended in a transient error. -/
def transientEndings (state : State) (id : Nat) : Nat :=
  tally (Note.fails id) state.history

/-! ## Where dead letters come from -/

/-- The dead letter was announced with the reason it carries. -/
def Announced (state : State) (letter : DeadLetter) : Prop :=
  ∃ task reason, ∃ original : Dict,
    .noted task (.deadLettering letter.origin reason) ∈ state.history ∧
      letter.fields = original.set "reason" reason

theorem Announced.grow {before after : State} {letter : DeadLetter}
    (announced : Announced before letter) (grows : Grows before after) :
    Announced after letter := by
  obtain ⟨task, reason, original, noted, fields⟩ := announced
  exact ⟨task, reason, original, grows.history.subset noted, fields⟩

/-- What is new in the dead-letter stream was just announced. -/
theorem announced_of_exec {world : World} {acks : Prop} {state after : State}
    {task : Tid} {command : Command} {choice : Choice}
    {reply : Except PyException command.Reply}
    (owes : Conduct world acks state task command)
    (taken : exec world state task command choice = some (reply, after))
    (older : ∀ letter ∈ state.redis.deadLetters, Announced state letter) :
    ∀ letter ∈ after.redis.deadLetters, Announced after letter := by
  intro letter member
  have grows := exec_grows taken
  by_cases added : ∃ origin fields, command = .xaddDlq origin fields
  · obtain ⟨origin, fields, rfl⟩ := added
    obtain ⟨reason, original, leaving, same⟩ := owes
    rcases settle_state taken with unchanged | reached
    · rw [unchanged] at member
      exact (older letter member).grow grows
    · have appended : after.redis.deadLetters =
          state.redis.deadLetters ++ [⟨origin, fields⟩] := by
        rw [reached, Redis.xaddDlq]
      rw [appended, List.mem_append, List.mem_singleton] at member
      cases member with
      | inl old => exact (older letter old).grow grows
      | inr newest =>
          have noted := noted_of_phase_leaving leaving
          rw [newest]
          exact ⟨task, reason, original, grows.history.subset noted, same⟩
  · rw [deadLetters_of_not_xaddDlq added taken] at member
    exact (older letter member).grow grows

theorem reaches_announced {world : World} {permit : AppPermit}
    {config : AppConfig} (reaches : Reaches world permit config) :
    ∀ letter ∈ config.shared.redis.deadLetters,
      Announced config.shared letter := by
  have within : ∀ state task command choice,
      permit.command state task command choice →
        (acking False).command state task command choice :=
    fun state task command choice _ => acking_false state task command choice
  let holds (state : State) : Prop :=
    ∀ letter ∈ state.redis.deadLetters, Announced state letter
  change holds config.shared
  have good : ∀ reached, Reaches world permit reached →
      (conduct world False).Good Rests reached :=
    fun _ earlier => reaches_good within earlier
  refine Discipline.invariant good within ?_ ?_ ?_ reaches
  · intro letter member
    cases member
  · intro before task command resume choice reply after _ _ _ _ owes taken held
    exact announced_of_exec owes taken held
  · intro before event after tasksAfter _ _ _ happened held letter member
    rw [happen_deadLetters happened] at member
    exact (held letter member).grow (happen_grows happened)

theorem letters_pos_of_buried {world : World} {permit : AppPermit}
    {config : AppConfig} {id : Nat} (reaches : Reaches world permit config)
    (buried : Buried config.shared id) :
    0 < (life id config.shared.history).letters := by
  obtain ⟨letter, member, origin⟩ := buried
  obtain ⟨task, reason, original, noted, _⟩ :=
    reaches_announced reaches letter member
  rw [origin] at noted
  exact tally_pos_iff.mpr ⟨task, _, noted, by simp [Note.buries]⟩

theorem successes_pos_of_succeeded {state : State} {id : Nat}
    (succeeded : Succeeded state id) :
    0 < (life id state.history).successes := by
  obtain ⟨task, outcome, noted⟩ := succeeded
  exact tally_pos_iff.mpr ⟨task, _, noted, by simp [Note.succeeds]⟩

/-! ## Exhaustion -/

/-- A dead letter that names the deliveries as used up. -/
def IsExhausted (letter : DeadLetter) : Prop :=
  letter.fields.get? "reason" = some "max deliveries exceeded"

instance (letter : DeadLetter) : Decidable (IsExhausted letter) :=
  inferInstanceAs (Decidable (_ = _))

theorem exhaustions_pos_of_isExhausted {world : World} {permit : AppPermit}
    {config : AppConfig} {letter : DeadLetter}
    (reaches : Reaches world permit config)
    (member : letter ∈ config.shared.redis.deadLetters)
    (exhausted : IsExhausted letter) :
    0 < (life letter.origin config.shared.history).exhaustions := by
  obtain ⟨task, reason, original, noted, fields⟩ :=
    reaches_announced reaches letter member
  rw [IsExhausted, fields, Dict.get?_set_self] at exhausted
  have same : reason = exhaustedReason := Option.some.inj exhausted
  exact tally_pos_iff.mpr
    ⟨task, _, noted, by simp [Note.exhausts, same]⟩

/-- What is written before an exhausted letter. -/
theorem used_of_isExhausted {world : World} {permit : AppPermit}
    {config : AppConfig} (reaches : Reaches world permit config)
    {letter : DeadLetter} (member : letter ∈ config.shared.redis.deadLetters)
    (exhausted : IsExhausted letter) :
    world.settings.maxDeliveries ≤
        deliveries config.shared.history letter.origin ∧
      ∃ task error,
        .noted task (.processEnded letter.origin (.error error)) ∈
            config.shared.history ∧
          error.cls.isTransient = true := by
  obtain ⟨original, reason, _, fields, used⟩ :=
    (reaches_safe_of_any reaches).letters letter member
  have same : reason = exhaustedReason := by
    have read := exhausted
    rw [IsExhausted, fields, Dict.get?_set_self] at read
    exact Option.some.inj read
  exact used same

/-- A message is dead-lettered as exhausted only after `max_deliveries`
deliveries, one of which ended in a transient error; and when no worker dies,
Redis never fails and no message is claimed out of a hand, that many attempts
did. -/
theorem exhausted_letter_used_its_deliveries {world : World}
    {config : AppConfig} (reaches : Reaches world Permit.any config)
    {letter : DeadLetter} (member : letter ∈ config.shared.redis.deadLetters)
    (exhausted : IsExhausted letter) :
    world.settings.maxDeliveries ≤
        deliveries config.shared.history letter.origin ∧
      1 ≤ transientEndings config.shared letter.origin ∧
        (Reaches world exclusive config →
          world.settings.maxDeliveries ≤
            transientEndings config.shared letter.origin) := by
  obtain ⟨enough, task, error, ended, transient⟩ :=
    used_of_isExhausted reaches member exhausted
  refine ⟨enough, ?_, ?_⟩
  · exact tally_pos_iff.mpr ⟨task, _, ended, by simp [Note.fails, transient]⟩
  · intro exclusively
    have counted := exhaustions_pos_of_isExhausted reaches member exhausted
    exact (reaches_orderly exclusively letter.origin).exhausted counted

/-! ## Guards -/

/-- Whether a command may have this choice when Redis never fails. -/
def redisAnswers (command : Command) (choice : Choice) : Bool :=
  match choice.fate with
  | .ok => true
  | _ => !command.isRedis

def noKill : Event → Bool
  | .kill _ => false
  | _ => true

def calm : AppGuard where
  command _ _ command choice := redisAnswers command choice
  env _ event := noKill event

theorem respects_calm : calm.Respects undisturbed where
  command := by
    intro state task command choice passed redis
    simp only [calm, redisAnswers] at passed
    split at passed
    case h_1 ok => exact ok
    case h_2 =>
      rw [redis] at passed
      cases passed
  env := by
    intro state event passed name same
    rw [same] at passed
    cases passed

/-- The tasks that the history names. -/
def actors (history : History) : List Tid :=
  history.filterMap fun happening =>
    match happening with
    | .delivered task _ => some task
    | .rateAnswered task _ _ => some task
    | .noted task _ => some task
    | .killed _ => none

theorem phase_idle_of_not_actor {history : History} {task : Tid} {id : Nat}
    (absent : task ∉ actors history) : phase history task id = .idle := by
  induction history with
  | nil => rfl
  | cons happening earlier inductionHypothesis =>
      have absentBefore : task ∉ actors earlier := by
        intro member
        obtain ⟨older, olderMember, named⟩ := List.mem_filterMap.mp member
        exact absent (List.mem_filterMap.mpr
          ⟨older, List.mem_cons_of_mem _ olderMember, named⟩)
      have elsewhere : ∀ actor, actors [happening] = [actor] →
          actor ≠ task := by
        intro actor named same
        apply absent
        have parts : actors ([happening] ++ earlier) =
            actors [happening] ++ actors earlier := List.filterMap_append
        change task ∈ actors ([happening] ++ earlier)
        rw [parts, named, same]
        exact List.mem_append_left _ List.mem_cons_self
      rw [phase_cons, inductionHypothesis absentBefore]
      cases happening with
      | delivered actor msgId =>
          exact if_neg fun same => elsewhere actor rfl same.1
      | rateAnswered actor currency rate => rfl
      | noted actor note => exact if_neg (elsewhere actor rfl)
      | killed name => exact ite_self _

/-- Claims hand out only what no task of the history has in hand. -/
def claimsIdle (state : State) : Command → Bool
  | .xautoclaim minIdleTime startId count =>
      (state.claimable minIdleTime startId count).all fun id =>
        (actors state.history).all fun task =>
          decide (phase state.history task id = .idle)
  | _ => true

def careful : AppGuard where
  command state task command choice :=
    calm.command state task command choice && claimsIdle state command
  env := calm.env

theorem respects_careful : careful.Respects exclusive where
  command := by
    intro state task command choice passed
    obtain ⟨answers, idle⟩ := Bool.and_eq_true_iff.mp passed
    refine ⟨respects_calm.command state task command choice answers, ?_⟩
    cases command with
    | xautoclaim minIdleTime startId count =>
        intro id claimed actor
        by_cases named : actor ∈ actors state.history
        · have all := List.all_eq_true.mp idle id claimed
          exact of_decide_eq_true (List.all_eq_true.mp all actor named)
        · exact phase_idle_of_not_actor named
    | _ => exact trivial
  env := respects_calm.env

/-! ## Runs about one event -/

/-- Two deliveries, and one request to the rate service for each. -/
def impatient : Settings :=
  { unbounded with
    maxDeliveries := 2, maxDeliveries_pos := by decide,
    rateAttempts := 1, rateAttempts_pos := by decide }

/-- The steps of a consume round that leaves the one message it is given
pending after a transient failure. -/
def failOnce (name : Nat) : List AppAction :=
  steps (.consume name) 7 {}

/-- The steps of a reclaim round that dead-letters the one message it is given
after a transient failure. -/
def giveUp (name : Nat) : List AppAction :=
  steps (.reclaim name) 12 {}

/-- While the rate service is down, an event fails twice. -/
def failTwice : List AppAction :=
  post 0 coffee {} ++ launch 0 ++ failOnce 0 ++ [.env (.tick 15000)] ++
    giveUp 0

/-- Whether the one dead letter in a configuration is an exhausted one. -/
def showsExhausted (config : AppConfig) : Bool :=
  config.shared.redis.deadLetters.any fun letter =>
    decide (IsExhausted letter) && decide (letter.origin = 0)

theorem exhausted_letter_used_its_deliveries_coffee :
    ∃ config, Reaches (coffeeWorld impatient) Permit.any config ∧
      ∃ letter ∈ config.shared.redis.deadLetters, IsExhausted letter ∧
        2 ≤ transientEndings config.shared letter.origin := by
  have taken : ((system (coffeeWorld impatient)).run careful start
      failTwice).any showsExhausted = true := by decide +kernel
  obtain ⟨config, exclusively, shown⟩ :=
    reaches_of_run respects_careful taken
  have reaches : Reaches (coffeeWorld impatient) Permit.any config :=
    System.Reachable.mono (fun _ _ _ _ _ => trivial) (fun _ _ _ => trivial)
      exclusively
  obtain ⟨letter, member, facts⟩ := List.any_eq_true.mp shown
  have exhausted : IsExhausted letter :=
    of_decide_eq_true (Bool.and_eq_true_iff.mp facts).1
  have used := exhausted_letter_used_its_deliveries reaches member exhausted
  exact ⟨config, reaches, letter, member, exhausted, used.2.2 exclusively⟩

/-- An event that is read and lost with its worker, and reclaimed while the
rate service is down. -/
def crashThenGiveUp : List AppAction :=
  post 0 coffee {} ++ launch 0 ++
    [.run (.consume 0) {}, .env (.kill 0)] ++ launch 0 ++
      [.env (.tick 15000)] ++ giveUp 0

/-- One crash after a read is enough to be dead-lettered as exhausted after a
single attempt, where two are allowed. -/
theorem crash_counts_as_attempt :
    ∃ config, Reaches (coffeeWorld impatient) Permit.any config ∧
      ∃ letter ∈ config.shared.redis.deadLetters, IsExhausted letter ∧
        transientEndings config.shared letter.origin <
          (coffeeWorld impatient).settings.maxDeliveries := by
  have taken : ((system (coffeeWorld impatient)).run Guard.any start
      crashThenGiveUp).any
        (fun config => config.shared.redis.deadLetters.any fun letter =>
          decide (IsExhausted letter) &&
            decide (transientEndings config.shared letter.origin < 2)) =
      true := by decide +kernel
  obtain ⟨config, reaches, shown⟩ := reaches_of_run respects_any taken
  obtain ⟨letter, member, facts⟩ := List.any_eq_true.mp shown
  obtain ⟨exhausted, fewer⟩ := Bool.and_eq_true_iff.mp facts
  exact ⟨config, reaches, letter, member, of_decide_eq_true exhausted,
    of_decide_eq_true fewer⟩

/-! ## Success and dead-lettering -/

/-- When no message is claimed out of a hand, and no worker dies and Redis
never fails, no message is both processed and dead-lettered. -/
theorem succeeded_xor_buried {world : World} {config : AppConfig}
    (reaches : Reaches world exclusive config) (id : Nat) :
    ¬ (Succeeded config.shared id ∧ Buried config.shared id) := by
  rintro ⟨succeeded, buried⟩
  have successes := successes_pos_of_succeeded succeeded
  have letters := letters_pos_of_buried reaches buried
  cases (reaches_orderly reaches id).apart with
  | inl none => omega
  | inr none => omega

theorem succeeded_xor_buried_coffee :
    ∃ config, Reaches (coffeeWorld impatient) exclusive config ∧
      Buried config.shared 0 ∧
        ¬ (Succeeded config.shared 0 ∧ Buried config.shared 0) := by
  have taken : ((system (coffeeWorld impatient)).run careful start
      failTwice).any showsExhausted = true := by decide +kernel
  obtain ⟨config, reaches, shown⟩ := reaches_of_run respects_careful taken
  obtain ⟨letter, member, facts⟩ := List.any_eq_true.mp shown
  have origin : letter.origin = 0 :=
    of_decide_eq_true (Bool.and_eq_true_iff.mp facts).2
  exact ⟨config, reaches, ⟨letter, member, origin⟩,
    succeeded_xor_buried reaches 0⟩

/-- While the consume loop waits for the rate service, the reclaim loop of the
same worker takes the message over and gives it up; then the rate service
answers the consume loop. -/
def takeOverAndGiveUp : List AppAction :=
  post 0 coffee {} ++ launch 0 ++ steps (.consume 0) 2 {} ++
    [.env (.tick 15000)] ++ giveUp 0 ++
      steps (.consume 0) 12 (answering (.finite false 11 (-1)))

/-- Claimed out of a hand, a message is dead-lettered and processed, though no
worker dies and Redis never fails. -/
theorem claimed_in_flight_meets_both_fates :
    ∃ config, Reaches (coffeeWorld impatient) undisturbed config ∧
      Succeeded config.shared 0 ∧ Buried config.shared 0 := by
  have taken : ((system (coffeeWorld impatient)).run calm start
      takeOverAndGiveUp).any
        (fun config =>
          config.shared.history.contains
              (.noted (.consume 0) (.processEnded 0 (.ok .processed))) &&
            showsExhausted config) =
      true := by decide +kernel
  obtain ⟨config, reaches, shown⟩ := reaches_of_run respects_calm taken
  obtain ⟨noted, lettered⟩ := Bool.and_eq_true_iff.mp shown
  obtain ⟨letter, member, facts⟩ := List.any_eq_true.mp lettered
  have origin : letter.origin = 0 :=
    of_decide_eq_true (Bool.and_eq_true_iff.mp facts).2
  exact ⟨config, reaches,
    ⟨.consume 0, .processed, List.contains_iff_mem.mp noted⟩,
    letter, member, origin⟩

end TxnEvents
