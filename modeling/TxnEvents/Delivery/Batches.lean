import TxnEvents.Delivery.Handover
import TxnEvents.Delivery.Metrics

/-!
# A batch that is interrupted

The loop over the entries of a batch writes a dead letter and acknowledges the
entry in two commands, and either may fail before or after it took effect.
What is lost at such a point is nothing but a field called `reason`, which the
reason of the dead letter overwrites.
-/

namespace TxnEvents

open Effects Python Streams App

/-! ## The commands of the dead-letter path -/

namespace RedisState

/-- The dead letter is in the stream. -/
def bury (redis : RedisState) (letter : DeadLetter) : RedisState :=
  { redis with deadLetters := redis.deadLetters ++ [letter] }

/-- The message is off the pending list. -/
def acked (redis : RedisState) (id : MsgId) : RedisState :=
  { redis with group := redis.group.map (·.ack id) }

def Pending (redis : RedisState) (id : MsgId) : Prop :=
  ∃ group, redis.group = some group ∧ group.Pending id

theorem pending_acked_iff
    (redis : RedisState)
    (id other : MsgId) :
    (redis.acked id).Pending other ↔ redis.Pending other ∧ other ≠ id := by
  cases found : redis.group with
  | none => simp [Pending, acked, found]
  | some group => simp [Pending, acked, found, Group.pending_ack_iff]

end RedisState

section Alone

variable {α : Type} {world : World} {permit : AppPermit} {task : Tid}
  {before met left after : State} {id : MsgId}

/-- The task runs the program with no others in between. -/
abbrev RunsAlone (world : World) (permit : AppPermit) (task : Tid)
    (body : App α) (before : State) (outcome : Except PyException α)
    (after : State) : Prop :=
  body.Runs ((system world).performs permit task) Eq before outcome after

/-- The task has come to the state, at the end of the program or before. -/
abbrev VisitsAlone (world : World) (permit : AppPermit) (task : Tid)
    (body : App α) (before after : State) : Prop :=
  body.Visits ((system world).performs permit task) Eq before after

theorem redis_of_observe
    {note : Note}
    {reply : Except PyException Unit}
    (performed :
      (system world).performs permit task met (.observe note) reply left) :
    left.redis = met.redis := by
  rcases performed with ⟨choice, _, taken⟩
  have executed : exec world met task (.observe note) choice =
      some (reply, left) := taken
  exact redis_of_not_isRedis rfl executed

/-- The effect takes place, unless the command fails before it. -/
theorem redis_of_settle
    {fate : Fate}
    {effect : Effect Unit}
    {reply : Except PyException Unit}
    (taken : some (settle fate met effect) = some (reply, left)) :
    left.redis = effect.2.redis ∨ left.redis = met.redis ∧ reply ≠ .ok () := by
  rcases settle_cases taken with ⟨_, reached⟩ | ⟨raised, failed, same | reached⟩
  · exact Or.inl (by rw [reached])
  · exact Or.inr ⟨by rw [same], by rw [failed]; simp⟩
  · exact Or.inl (by rw [reached])

/-- A letter is written, unless the command fails before that. -/
theorem redis_of_xaddDlq
    {fields : Dict}
    {reply : Except PyException Unit}
    (performed :
      (system world).performs permit task met (.xaddDlq id fields) reply
        left) :
    left.redis = met.redis.bury ⟨id, fields⟩ ∨
      left.redis = met.redis ∧ reply ≠ .ok () := by
  rcases performed with ⟨choice, _, taken⟩
  exact redis_of_settle taken

/-- The entry is acknowledged, unless the command fails before that. -/
theorem redis_of_xack
    {reply : Except PyException Unit}
    (performed :
      (system world).performs permit task met (.xack id) reply left) :
    left.redis = met.redis.acked id ∨
      left.redis = met.redis ∧ reply ≠ .ok () := by
  rcases performed with ⟨choice, _, taken⟩
  exact redis_of_settle taken

/-- The three points at which the dead-lettering of an entry can stop. -/
theorem visits_deadLetterFields
    {fields : Dict}
    {reason : String}
    (visits :
      VisitsAlone world permit task (deadLetterFields id fields reason) before
        after) :
    after.redis = before.redis ∨
      after.redis = before.redis.bury ⟨id, fields.set "reason" reason⟩ ∨
        after.redis =
          (before.redis.bury ⟨id, fields.set "reason" reason⟩).acked id := by
  rcases Prog.Visits.bind Eq.refl visits with
    announcing | ⟨_, announced, noting, adding⟩
  · rcases announcing.perform with rfl | ⟨met, _, left, rfl, noted, rfl⟩
    · exact Or.inl rfl
    · exact Or.inl (redis_of_observe noted)
  · rcases noting.perform with ⟨met, left, rfl, noted, rfl⟩
    rw [← redis_of_observe noted]
    rcases Prog.Visits.bind Eq.refl adding with
      writing | ⟨_, written, wrote, acking⟩
    · rcases writing.perform with rfl | ⟨met, _, left, rfl, added, rfl⟩
      · exact Or.inl rfl
      · rcases redis_of_xaddDlq added with buried | ⟨same, _⟩
        · exact Or.inr (Or.inl buried)
        · exact Or.inl same
    · rcases wrote.perform with ⟨met, left, rfl, added, rfl⟩
      rcases redis_of_xaddDlq added with buried | ⟨_, failed⟩
      · rw [← buried]
        rcases acking.perform with rfl | ⟨met, _, left, rfl, acked, rfl⟩
        · exact Or.inr (Or.inl rfl)
        · rcases redis_of_xack acked with gone | ⟨same, _⟩
          · exact Or.inr (Or.inr gone)
          · exact Or.inr (Or.inl same)
      · exact absurd rfl failed

theorem runs_deadLetterFields
    {fields : Dict}
    {reason : String}
    (runs :
      RunsAlone world permit task (deadLetterFields id fields reason) before
        (.ok ()) after) :
    after.redis =
      (before.redis.bury ⟨id, fields.set "reason" reason⟩).acked id := by
  rcases Prog.Runs.bind Eq.refl runs with
    ⟨_, announced, noting, adding⟩ | ⟨_, impossible, _⟩
  · rcases noting.perform with ⟨met, left, rfl, noted, rfl⟩
    rw [← redis_of_observe noted]
    rcases Prog.Runs.bind Eq.refl adding with
      ⟨_, written, wrote, acking⟩ | ⟨_, impossible, _⟩
    · rcases wrote.perform with ⟨met, left, rfl, added, rfl⟩
      rcases acking.perform with ⟨met, left, rfl, acked, rfl⟩
      rcases redis_of_xaddDlq added with buried | ⟨_, failed⟩
      · rcases redis_of_xack acked with gone | ⟨_, failed⟩
        · rw [gone, buried]
        · exact absurd rfl failed
      · exact absurd rfl failed
    · cases impossible
  · cases impossible

end Alone

/-! ## How far a batch has come -/

/-- The dead letter of an entry that fails to parse. -/
def letterOf (world : World) (entry : MsgId × Dict) : Option DeadLetter :=
  match parseFields world.unicode world.json entry.2 with
  | .ok _ => none
  | .error exc =>
      some ⟨entry.1, entry.2.set "reason" ("unparseable: " ++ exc.text)⟩

/-- Some dead letters were added, of entries that fail to parse, and whatever
left the pending list is among them. -/
def Progress (world : World) (entries : List (MsgId × Dict))
    (before after : RedisState) : Prop :=
  ∃ letters, after.deadLetters = before.deadLetters ++ letters ∧
    (∀ letter ∈ letters, letter ∈ entries.filterMap (letterOf world)) ∧
      ∀ id, before.Pending id →
        after.Pending id ∨ ∃ letter ∈ letters, letter.origin = id

/-- All dead letters were added, in order, and their entries left the pending
list. -/
structure Buries (letters : List DeadLetter) (before after : RedisState) :
    Prop where
  deadLetters : after.deadLetters = before.deadLetters ++ letters
  pending : ∀ id, after.Pending id ↔
    before.Pending id ∧ ∀ letter ∈ letters, letter.origin ≠ id

section Progress

variable {world : World} {entries : List (MsgId × Dict)}
  {before middle after : RedisState} {letter : DeadLetter}

theorem Progress.refl (world : World) (entries : List (MsgId × Dict))
    (redis : RedisState) : Progress world entries redis redis :=
  ⟨[], (List.append_nil _).symm, by simp, fun _ pending => Or.inl pending⟩

/-- What the first entry has done, and then the other ones. -/
theorem Progress.cons
    {entry : MsgId × Dict}
    (made : letterOf world entry = some letter)
    (first : Buries [letter] before middle)
    (rest : Progress world entries middle after) :
    Progress world (entry :: entries) before after := by
  rcases rest with ⟨letters, added, proper, kept⟩
  refine ⟨letter :: letters, ?_, ?_, ?_⟩
  · rw [added, first.deadLetters, List.append_assoc, List.singleton_append]
  · intro other member
    rw [List.filterMap_cons_some made]
    rcases List.mem_cons.mp member with same | later
    · rw [same]
      exact List.mem_cons_self
    · exact List.mem_cons_of_mem letter (proper other later)
  · intro id pending
    by_cases mine : letter.origin = id
    · exact Or.inr ⟨letter, List.mem_cons_self, mine⟩
    · have still : middle.Pending id :=
        (first.pending id).mpr ⟨pending, by simpa using mine⟩
      rcases kept id still with waiting | ⟨other, member, same⟩
      · exact Or.inl waiting
      · exact Or.inr ⟨other, List.mem_cons_of_mem letter member, same⟩

theorem Progress.skip
    {entry : MsgId × Dict}
    (parses : letterOf world entry = none)
    (rest : Progress world entries before after) :
    Progress world (entry :: entries) before after := by
  rw [Progress, List.filterMap_cons_none parses]
  exact rest

theorem progress_of_bury
    {entry : MsgId × Dict}
    (made : letterOf world entry = some letter) :
    Progress world (entry :: entries) before (before.bury letter) := by
  refine ⟨[letter], rfl, ?_, fun _ pending => Or.inl pending⟩
  intro other member
  rw [List.filterMap_cons_some made, List.mem_singleton.mp member]
  exact List.mem_cons_self

theorem buries_acked (before : RedisState) (letter : DeadLetter) :
    Buries [letter] before ((before.bury letter).acked letter.origin) where
  deadLetters := rfl
  pending := by
    intro id
    rw [RedisState.pending_acked_iff, List.forall_mem_singleton]
    exact and_congr_right fun _ => ne_comm

theorem Buries.refl (redis : RedisState) : Buries [] redis redis where
  deadLetters := (List.append_nil _).symm
  pending := by
    intro id
    simp

theorem Buries.append
    {first second : List DeadLetter}
    (early : Buries first before middle)
    (late : Buries second middle after) :
    Buries (first ++ second) before after where
  deadLetters := by
    rw [late.deadLetters, early.deadLetters, List.append_assoc]
  pending := by
    intro id
    rw [late.pending, early.pending, List.forall_mem_append, and_assoc]

end Progress

section Parse

variable {world : World} {permit : AppPermit} {task : Tid}
  {before after : State} {deliveryCounts : MsgId → Nat}
  {entries : List (MsgId × Dict)}

theorem buries_of_deadLetterFields
    {id : MsgId}
    {fields : Dict}
    {reason : String}
    (runs :
      RunsAlone world permit task (deadLetterFields id fields reason) before
        (.ok ()) after) :
    Buries [⟨id, fields.set "reason" reason⟩] before.redis after.redis := by
  rw [runs_deadLetterFields runs]
  exact buries_acked before.redis ⟨id, fields.set "reason" reason⟩

/-- Wherever the loop stops, by induction on the entries. -/
theorem visits_parseEntries
    (visits :
      VisitsAlone world permit task (parseEntries world deliveryCounts entries)
        before after) :
    Progress world entries before.redis after.redis := by
  induction entries generalizing before after with
  | nil =>
      rw [visits.ret]
      exact Progress.refl world [] after.redis
  | cons entry rest inductionHypothesis =>
      rcases entry with ⟨msgId, fields⟩
      rw [parseEntries] at visits
      split at visits
      case h_1 exc failed =>
        have made : letterOf world (msgId, fields) =
            some ⟨msgId, fields.set "reason" ("unparseable: " ++ exc.text)⟩ := by
          rw [letterOf, failed]
        rw [if_pos (isParseError_of_parseFields failed)] at visits
        rcases Prog.Visits.bind Eq.refl visits with
          stopped | ⟨_, buried, lettering, finishing⟩
        · rcases visits_deadLetterFields stopped with same | written | done
          · rw [same]
            exact Progress.refl world _ before.redis
          · rw [written]
            exact progress_of_bury made
          · rw [done]
            exact Progress.cons made (buries_acked before.redis _)
              (Progress.refl world rest _)
        · have isBuried := buries_of_deadLetterFields lettering
          rcases Prog.Visits.bind Eq.refl finishing with
            noting | ⟨_, finished, written, parsing⟩
          · rcases noting.perform with rfl | ⟨met, _, left, rfl, noted, rfl⟩
            · exact Progress.cons made isBuried (Progress.refl world rest _)
            · rw [redis_of_observe noted]
              exact Progress.cons made isBuried (Progress.refl world rest _)
          · rcases written.perform with ⟨met, left, rfl, noted, rfl⟩
            have progress := inductionHypothesis parsing
            rw [redis_of_observe noted] at progress
            exact Progress.cons made isBuried progress
      case h_2 event parsed =>
        have skipped : letterOf world (msgId, fields) = none := by
          rw [letterOf, parsed]
        apply Progress.skip skipped
        rcases Prog.Visits.bind Eq.refl visits with
          stopped | ⟨_, middle, parsing, returning⟩
        · exact inductionHypothesis stopped
        · rw [← returning.ret]
          exact inductionHypothesis parsing.visits

/-- A loop that comes to its end, by induction on the entries. -/
theorem runs_parseEntries
    {messages : List StreamMessage}
    (runs :
      RunsAlone world permit task (parseEntries world deliveryCounts entries)
        before (.ok messages) after) :
    Buries (entries.filterMap (letterOf world)) before.redis after.redis := by
  induction entries generalizing before after messages with
  | nil =>
      rw [runs.ret.2]
      exact Buries.refl after.redis
  | cons entry rest inductionHypothesis =>
      rcases entry with ⟨msgId, fields⟩
      rw [parseEntries] at runs
      split at runs
      case h_1 exc failed =>
        have made : letterOf world (msgId, fields) =
            some ⟨msgId, fields.set "reason" ("unparseable: " ++ exc.text)⟩ := by
          rw [letterOf, failed]
        rw [if_pos (isParseError_of_parseFields failed)] at runs
        rw [List.filterMap_cons_some made, ← List.singleton_append]
        rcases Prog.Runs.bind Eq.refl runs with
          ⟨_, buried, lettering, finishing⟩ | ⟨_, impossible, _⟩
        · have isBuried := buries_of_deadLetterFields lettering
          rcases Prog.Runs.bind Eq.refl finishing with
            ⟨_, finished, noting, parsing⟩ | ⟨_, impossible, _⟩
          · rcases noting.perform with ⟨met, left, rfl, noted, rfl⟩
            have rested := inductionHypothesis parsing
            rw [redis_of_observe noted] at rested
            exact isBuried.append rested
          · cases impossible
        · cases impossible
      case h_2 event parsed =>
        have skipped : letterOf world (msgId, fields) = none := by
          rw [letterOf, parsed]
        rw [List.filterMap_cons_none skipped]
        rcases Prog.Runs.bind Eq.refl runs with
          ⟨_, middle, parsing, returning⟩ | ⟨_, impossible, _⟩
        · rw [← returning.ret.2]
          exact inductionHypothesis parsing
        · cases impossible

/-! ### Without a failure -/

/-- When Redis never fails, the dead-letter path does not. -/
theorem deadLetterFields_returns
    {id : MsgId}
    {fields : Dict}
    {reason : String}
    {outcome : Except PyException Unit}
    (runs :
      RunsAlone world undisturbed task (deadLetterFields id fields reason)
        before outcome after) :
    outcome = .ok () := by
  rcases Prog.Runs.bind Eq.refl runs with
    ⟨_, announced, _, adding⟩ | ⟨_, _, noting⟩
  · rcases Prog.Runs.bind Eq.refl adding with
      ⟨_, written, _, acking⟩ | ⟨_, _, writing⟩
    · rcases acking.perform with ⟨met, left, _, ⟨choice, fine, taken⟩, _⟩
      have executed : exec world met task (.xack id) choice =
          some (outcome, left) := taken
      rw [exec, fine rfl] at executed
      exact (settle_of_ok executed).1
    · rcases writing.perform with ⟨met, left, _, ⟨choice, fine, taken⟩, _⟩
      have executed :
          exec world met task (.xaddDlq id (fields.set "reason" reason))
            choice = some (_, left) := taken
      rw [exec, fine rfl] at executed
      cases (settle_of_ok executed).1
  · rcases noting.perform with ⟨met, left, _, ⟨choice, _, taken⟩, _⟩
    cases taken

theorem observe_returns
    {note : Note}
    {outcome : Except PyException Unit}
    (runs : RunsAlone world permit task (App.observe note) before outcome
      after) : outcome = .ok () := by
  rcases runs.perform with ⟨met, left, _, ⟨choice, _, taken⟩, _⟩
  cases taken
  rfl

theorem parseEntries_returns
    {outcome : Except PyException (List StreamMessage)}
    (runs :
      RunsAlone world undisturbed task
        (parseEntries world deliveryCounts entries) before outcome after) :
    ∃ messages, outcome = .ok messages := by
  induction entries generalizing before after outcome with
  | nil => exact ⟨[], runs.ret.1⟩
  | cons entry rest inductionHypothesis =>
      rcases entry with ⟨msgId, fields⟩
      rw [parseEntries] at runs
      split at runs
      case h_1 exc failed =>
        rw [if_pos (isParseError_of_parseFields failed)] at runs
        rcases Prog.Runs.bind Eq.refl runs with
          ⟨_, buried, _, finishing⟩ | ⟨_, _, lettering⟩
        · rcases Prog.Runs.bind Eq.refl finishing with
            ⟨_, finished, _, parsing⟩ | ⟨_, _, noting⟩
          · exact inductionHypothesis parsing
          · cases observe_returns noting
        · cases deadLetterFields_returns lettering
      case h_2 event parsed =>
        rcases Prog.Runs.bind Eq.refl runs with
          ⟨messages, middle, _, returning⟩ | ⟨_, _, parsing⟩
        · exact ⟨_, returning.ret.1⟩
        · rcases inductionHypothesis parsing with ⟨_, impossible⟩
          cases impossible

/-- There is a run in which Redis never fails. -/
theorem exists_unfailing
    (world : World)
    (task : Tid)
    (deliveryCounts : MsgId → Nat)
    (entries : List (MsgId × Dict))
    (before : State) :
    ∃ messages after,
      RunsAlone world undisturbed task
        (parseEntries world deliveryCounts entries) before (.ok messages)
          after := by
  have performable : ∀ (state : State) (command : Command),
      command.Buries → ∃ reply left,
        (system world).performs undisturbed task state command reply left := by
    intro state command buries
    cases command with
    | observe note => exact ⟨_, _, {}, fun _ => rfl, rfl⟩
    | xaddDlq id fields => exact ⟨_, _, {}, fun _ => rfl, rfl⟩
    | xack id => exact ⟨_, _, {}, fun _ => rfl, rfl⟩
    | _ => exact buries.elim
  have uses := uses_parseEntries world deliveryCounts entries
  rcases Prog.exists_runs Eq.refl performable uses before with
    ⟨outcome, after, runs⟩
  rcases parseEntries_returns runs with ⟨messages, same⟩
  rw [same] at runs
  exact ⟨messages, after, runs⟩

end Parse

/-! ## What is not lost -/

/-- The pairs are pending entries of the stream, with their fields. -/
def DeliveredPairs (state : State) (entries : List (MsgId × Dict)) : Prop :=
  ∀ entry ∈ entries,
    state.entryFields entry.1 = some entry.2 ∧ state.Pending entry.1

/-- The dead letters that were written in between. -/
def newLetters (before after : State) : List DeadLetter :=
  after.redis.deadLetters.drop before.redis.deadLetters.length

/-- The letter carries the fields of the entry and a reason. -/
def CarriesOver (entry : MsgId × Dict) (letter : DeadLetter) : Prop :=
  letter.origin = entry.1 ∧
    ∃ reason, letter.fields = entry.2 ++ [("reason", reason)]

/-- Every acknowledged entry fails to parse and has its letter, and those that
parse are neither acknowledged nor dead-lettered. -/
structure SafeAt (world : World) (entries : List (MsgId × Dict))
    (before after : State) : Prop where
  acked : ∀ id, before.Pending id → ¬ after.Pending id →
    ∃ entry ∈ entries, entry.1 = id ∧ failsToParse world entry.2 = true ∧
      ∃ letter ∈ newLetters before after, CarriesOver entry letter
  parseable : ∀ entry ∈ entries, failsToParse world entry.2 = false →
    after.Pending entry.1 ∧
      ∀ letter ∈ newLetters before after, letter.origin ≠ entry.1

/-- The batch loses nothing, wherever it is interrupted, and without a failure
every entry is returned, or dead-lettered once and acknowledged. -/
structure LosesNothing (world : World) (task : Tid)
    (deliveryCounts : MsgId → Nat) (entries : List (MsgId × Dict))
    (before : State) : Prop where
  interrupted : ∀ after,
    VisitsAlone world Permit.any task
        (parseEntries world deliveryCounts entries) before after →
      SafeAt world entries before after
  unfailing : ∀ outcome after,
    RunsAlone world undisturbed task
        (parseEntries world deliveryCounts entries) before outcome after →
      outcome = .ok (entries.filterMap (messageOf world deliveryCounts)) ∧
        List.Forall₂ CarriesOver
          (entries.filter fun entry => failsToParse world entry.2)
          (newLetters before after) ∧
        ∀ entry ∈ entries, failsToParse world entry.2 = true →
          ¬ after.Pending entry.1

section LosesNothing

variable {world : World} {entries : List (MsgId × Dict)}
  {before after : State} {letter : DeadLetter}

theorem newLetters_eq
    {letters : List DeadLetter}
    (added : after.redis.deadLetters = before.redis.deadLetters ++ letters) :
    newLetters before after = letters := by
  rw [newLetters, added, List.drop_left]

theorem letterOf_eq_none_iff
    {entry : MsgId × Dict} :
    letterOf world entry = none ↔ failsToParse world entry.2 = false := by
  rw [letterOf, failsToParse]
  cases parseFields world.unicode world.json entry.2 with
  | ok event => simp
  | error exc => simp

theorem exists_letterOf
    {entry : MsgId × Dict}
    (fails : failsToParse world entry.2 = true) :
    ∃ letter, letterOf world entry = some letter ∧
      letter.origin = entry.1 := by
  rcases failsToParse_iff.mp fails with ⟨exc, failed⟩
  exact ⟨⟨entry.1, entry.2.set "reason" ("unparseable: " ++ exc.text)⟩,
    by rw [letterOf, failed], rfl⟩

theorem fails_of_letterOf
    {entry : MsgId × Dict}
    (made : letterOf world entry = some letter) :
    failsToParse world entry.2 = true := by
  by_contra parses
  rw [Bool.not_eq_true] at parses
  rw [letterOf_eq_none_iff.mpr parses] at made
  cases made

/-- A letter belongs to one entry of the batch. -/
theorem entry_of_letter
    (member : letter ∈ entries.filterMap (letterOf world)) :
    ∃ entry ∈ entries, failsToParse world entry.2 = true ∧
      letter.origin = entry.1 ∧
        ∃ reason, letter.fields = entry.2.set "reason" reason := by
  rcases List.mem_filterMap.mp member with ⟨entry, inside, made⟩
  refine ⟨entry, inside, ?_⟩
  have fails := fails_of_letterOf made
  rw [letterOf] at made
  split at made
  · cases made
  · cases made
    exact ⟨fails, rfl, _, rfl⟩

/-- Without a field of that name, the reason is added to the others. -/
theorem carriesOver_of_letterOf
    {entry : MsgId × Dict}
    (fresh : "reason" ∉ entry.2.map Prod.fst)
    (made : letterOf world entry = some letter) :
    CarriesOver entry letter := by
  rw [letterOf] at made
  split at made
  · cases made
  · cases made
    exact ⟨rfl, _, Dict.set_of_not_mem fresh⟩

/-- A field of that name is overwritten. -/
theorem not_carriesOver_of_set
    {entry : MsgId × Dict}
    {reason : String}
    (taken : "reason" ∈ entry.2.map Prod.fst)
    (fields : letter.fields = entry.2.set "reason" reason) :
    ¬ CarriesOver entry letter := by
  rintro ⟨_, other, same⟩
  have keys := congrArg (List.map Prod.fst) (fields.symm.trans same)
  rw [Dict.keys_set_of_mem reason taken, List.map_append] at keys
  have lengths := congrArg List.length keys
  simp at lengths

/-- The letters of the entries that fail, in the order of these. -/
theorem forall₂_filterMap_letterOf
    (fresh : ∀ entry ∈ entries, failsToParse world entry.2 = true →
      "reason" ∉ entry.2.map Prod.fst) :
    List.Forall₂ CarriesOver
      (entries.filter fun entry => failsToParse world entry.2)
      (entries.filterMap (letterOf world)) := by
  induction entries with
  | nil => exact List.Forall₂.nil
  | cons entry rest inductionHypothesis =>
      have restFresh := inductionHypothesis fun other member =>
        fresh other (List.mem_cons_of_mem entry member)
      cases made : letterOf world entry with
      | none =>
          have parses := letterOf_eq_none_iff.mp made
          rw [List.filterMap_cons_none made, List.filter_cons,
            if_neg (by simp [parses])]
          exact restFresh
      | some letter =>
          have fails := fails_of_letterOf made
          rw [List.filterMap_cons_some made, List.filter_cons, if_pos fails]
          exact List.Forall₂.cons
            (carriesOver_of_letterOf (fresh entry List.mem_cons_self fails)
              made)
            restFresh

theorem exists_letter_of_forall₂
    {letters : List DeadLetter}
    {entry : MsgId × Dict}
    (carried : List.Forall₂ CarriesOver entries letters)
    (inside : entry ∈ entries) :
    ∃ letter ∈ letters, CarriesOver entry letter := by
  induction carried with
  | nil => cases inside
  | @cons first letter _ _ here _ inductionHypothesis =>
      rcases List.mem_cons.mp inside with same | later
      · rw [same]
        exact ⟨letter, List.mem_cons_self, here⟩
      · rcases inductionHypothesis later with ⟨other, member, carries⟩
        exact ⟨other, List.mem_cons_of_mem letter member, carries⟩

theorem DeliveredPairs.same_fields
    (delivered : DeliveredPairs before entries)
    {first second : MsgId × Dict}
    (firstMember : first ∈ entries)
    (secondMember : second ∈ entries)
    (same : first.1 = second.1) : first.2 = second.2 := by
  have one := (delivered first firstMember).1
  rw [same, (delivered second secondMember).1] at one
  exact (Option.some.inj one).symm

theorem safeAt_of_progress
    (delivered : DeliveredPairs before entries)
    (fresh : ∀ entry ∈ entries, failsToParse world entry.2 = true →
      "reason" ∉ entry.2.map Prod.fst)
    (progress : Progress world entries before.redis after.redis) :
    SafeAt world entries before after := by
  rcases progress with ⟨letters, added, proper, kept⟩
  have new := newLetters_eq added
  constructor
  · intro id pending gone
    rcases kept id pending with still | ⟨letter, member, origin⟩
    · exact absurd still gone
    · rcases entry_of_letter (proper letter member) with
        ⟨entry, inside, fails, sameId, reason, fields⟩
      refine ⟨entry, inside, sameId.symm.trans origin, fails, letter, ?_,
        sameId, reason, ?_⟩
      · rw [new]
        exact member
      · rw [fields, Dict.set_of_not_mem (fresh entry inside fails)]
  · intro entry inside parses
    have untouched : ∀ letter ∈ letters, letter.origin ≠ entry.1 := by
      intro letter member origin
      rcases entry_of_letter (proper letter member) with
        ⟨other, otherInside, fails, sameId, _⟩
      have same : other.2 = entry.2 :=
        delivered.same_fields otherInside inside (sameId.symm.trans origin)
      rw [same, parses] at fails
      cases fails
    rw [new]
    refine ⟨?_, untouched⟩
    rcases kept entry.1 (delivered entry inside).2 with
      still | ⟨letter, member, origin⟩
    · exact still
    · exact absurd origin (untouched letter member)

/-- In a run without a failure, a field called `reason` of an entry that fails
to parse is lost. -/
theorem fresh_of_losesNothing
    {task : Tid}
    {deliveryCounts : MsgId → Nat}
    (delivered : DeliveredPairs before entries)
    (losesNothing : LosesNothing world task deliveryCounts entries before) :
    ∀ entry ∈ entries, failsToParse world entry.2 = true →
      "reason" ∉ entry.2.map Prod.fst := by
  intro entry inside fails taken
  rcases exists_unfailing world task deliveryCounts entries before with
    ⟨messages, after, runs⟩
  have carried := (losesNothing.unfailing _ after runs).2.1
  rw [newLetters_eq (runs_parseEntries runs).deadLetters] at carried
  have inFilter : entry ∈
      entries.filter fun entry => failsToParse world entry.2 :=
    List.mem_filter.mpr ⟨inside, fails⟩
  rcases exists_letter_of_forall₂ carried inFilter with
    ⟨letter, member, carries⟩
  rcases entry_of_letter member with
    ⟨other, otherInside, _, origin, reason, fields⟩
  have same : other.2 = entry.2 :=
    delivered.same_fields otherInside inside (origin.symm.trans carries.1)
  rw [same] at fields
  exact not_carriesOver_of_set taken fields carries

theorem losesNothing_of_fresh
    {task : Tid}
    {deliveryCounts : MsgId → Nat}
    (delivered : DeliveredPairs before entries)
    (fresh : ∀ entry ∈ entries, failsToParse world entry.2 = true →
      "reason" ∉ entry.2.map Prod.fst) :
    LosesNothing world task deliveryCounts entries before := by
  constructor
  · intro after visits
    exact safeAt_of_progress delivered fresh (visits_parseEntries visits)
  · intro outcome after runs
    rcases parseEntries_returns runs with ⟨messages, rfl⟩
    have buries := runs_parseEntries runs
    rcases runs with ⟨trace, played, _⟩
    refine ⟨by rw [plays_parseEntries played], ?_, ?_⟩
    · rw [newLetters_eq buries.deadLetters]
      exact forall₂_filterMap_letterOf fresh
    · intro entry inside fails pending
      rcases exists_letterOf fails with ⟨letter, made, origin⟩
      have member : letter ∈ entries.filterMap (letterOf world) :=
        List.mem_filterMap.mpr ⟨entry, inside, made⟩
      exact ((buries.pending entry.1).mp pending).2 letter member origin

/-- A batch loses nothing exactly when no entry that fails to parse has a
field called `reason`. -/
theorem batch_loses_nothing_iff
    (world : World)
    (task : Tid)
    (deliveryCounts : MsgId → Nat)
    (entries : List (MsgId × Dict))
    (before : State)
    (delivered : DeliveredPairs before entries) :
    LosesNothing world task deliveryCounts entries before ↔
      ∀ entry ∈ entries, failsToParse world entry.2 = true →
        "reason" ∉ entry.2.map Prod.fst := by
  constructor
  · exact fresh_of_losesNothing delivered
  · exact losesNothing_of_fresh delivered

end LosesNothing

/-! ## Two batches -/

/-- Whether the pairs are pending entries of the stream. -/
def showsDelivered (entries : List (MsgId × Dict)) (config : AppConfig) :
    Bool :=
  entries.all fun entry =>
    decide (config.shared.entryFields entry.1 = some entry.2) &&
      config.shared.redis.group.any fun group => decide (group.Pending entry.1)

theorem deliveredPairs_of_shows
    {entries : List (MsgId × Dict)}
    {config : AppConfig}
    (shown : showsDelivered entries config = true) :
    DeliveredPairs config.shared entries := by
  intro entry member
  have here := List.all_eq_true.mp shown entry member
  rw [Bool.and_eq_true, decide_eq_true_eq] at here
  rcases (Option.any_eq_true _ _).mp here.2 with ⟨group, found, pending⟩
  exact ⟨here.1, group, found, of_decide_eq_true pending⟩

/-- The coffee, and an entry without a payload. -/
def coffeeAndEmpty : List (MsgId × Dict) :=
  [(0, publishedFields (coffeeWorld Settings.defaults).json coffeeEvent),
    (1, [("schema_version", "1")])]

theorem batch_loses_nothing_iff_coffee :
    ∃ config, Reaches (coffeeWorld {}) Permit.any config ∧
      LosesNothing (coffeeWorld {}) (.consume 0) (fun _ => 1) coffeeAndEmpty
        config.shared := by
  have taken : ((system (coffeeWorld {})).run Guard.any start
      (beforeReading emptyEntry ++ [.run (.consume 0) {}])).any
        (showsDelivered coffeeAndEmpty) = true := by decide +kernel
  rcases reaches_of_run respects_any taken with ⟨config, reaches, shown⟩
  have fresh : ∀ entry ∈ coffeeAndEmpty,
      failsToParse (coffeeWorld {}) entry.2 = true →
        "reason" ∉ entry.2.map Prod.fst := by decide +kernel
  exact ⟨config, reaches,
    (batch_loses_nothing_iff (coffeeWorld {}) (.consume 0) (fun _ => 1)
      coffeeAndEmpty config.shared (deliveredPairs_of_shows shown)).mpr fresh⟩

/-- An entry of another client with a reason and nothing else. -/
def excuse : List (MsgId × Dict) :=
  [(0, [("reason", "late")])]

/-- The reason that another client gave is not in the dead letter. -/
theorem reason_is_overwritten :
    ∃ config, Reaches (coffeeWorld {}) Permit.any config ∧
      DeliveredPairs config.shared excuse ∧
        ¬ LosesNothing (coffeeWorld {}) (.consume 0) (fun _ => 1) excuse
          config.shared := by
  have taken : ((system (coffeeWorld {})).run Guard.any start
      (launch 0 ++
        [.env (.inject [(.text "reason", .text "late")]),
          .run (.consume 0) {}])).any (showsDelivered excuse) = true := by
    decide +kernel
  rcases reaches_of_run respects_any taken with ⟨config, reaches, shown⟩
  have delivered := deliveredPairs_of_shows shown
  refine ⟨config, reaches, delivered, ?_⟩
  intro losesNothing
  have fails : failsToParse (coffeeWorld {}) [("reason", "late")] = true := by
    decide +kernel
  exact fresh_of_losesNothing delivered losesNothing (0, [("reason", "late")])
    List.mem_cons_self fails List.mem_cons_self

end TxnEvents
