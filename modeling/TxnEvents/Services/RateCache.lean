import TxnEvents.Effects.Recording
import TxnEvents.Services.Lookups
import TxnEvents.System.Runs

/-!
# The rate cache under concurrent lookups

Any number of lookups share the cache and the clock of one process.  The
journal of their commands shows that the cache holds what was stored last, and
that everything stored was answered by the service a moment before.
-/

namespace TxnEvents

open Effects Arith Python App

/-- One call of `get_rate`. -/
structure Caller where
  number : Nat
  currency : String
deriving DecidableEq

/-- A call whose result is awaited elsewhere. -/
def awaitRate (world : World) (caller : Caller) : App Unit :=
  (getRate world caller.currency).bind fun _ => .ret ()

/-- The lookups of one process.  Every caller calls once. -/
def lookups (world : World) : System appSig State Caller Choice Caller where
  exec state _ command choice := exec world state (.consume 0) command choice
  next _ tasks := tasks
  env caller state tasks :=
    if (tasks caller).isNone then
      some (state,
        Function.update tasks caller (some (awaitRate world caller)))
    else none

/-- What was stored last for the currency. -/
def lastStored :
    Journal appSig Caller → String → Option (Decimal × ℚ)
  | [], _ => none
  | ⟨_, ⟨.cacheSet stored rate expiresAt, _⟩⟩ :: older, currency =>
      if stored = currency then some (rate, expiresAt)
      else lastStored older currency
  | _ :: older, currency => lastStored older currency

/-- The service has answered the caller with this rate. -/
def Answers (log : Journal appSig Caller) (caller : Caller) (rate : Decimal) :
    Prop :=
  ∃ response : HttpResponse,
    (⟨caller, ⟨.httpGet caller.currency, .ok response⟩⟩ :
        Record appSig Caller) ∈ log ∧
      200 ≤ response.statusCode ∧ response.statusCode < 300 ∧
        response.rate = .ok rate

/-- The caller has read this on the clock. -/
def ReadClock (log : Journal appSig Caller) (caller : Caller)
    (now : ClockReading) : Prop :=
  (⟨caller, ⟨.monotonic, .ok now⟩⟩ : Record appSig Caller) ∈ log

theorem Answers.mono {older newer : Journal appSig Caller} {caller : Caller}
    {rate : Decimal} (answers : Answers older caller rate)
    (subset : older ⊆ newer) : Answers newer caller rate := by
  obtain ⟨response, member, success⟩ := answers
  exact ⟨response, subset member, success⟩

/-- What an entry of the journal has to do with the entries before it. -/
def FollowsFrom (world : World) (older : Journal appSig Caller)
    (caller : Caller) : Answer appSig → Prop
  | ⟨.cacheGet currency, reply⟩ => reply = .ok (lastStored older currency)
  | ⟨.monotonic, reply⟩ => ∃ now, reply = .ok now ∧
      ∀ other earlier, ReadClock older other earlier →
        earlier.value ≤ now.value
  | ⟨.cacheSet currency rate expiresAt, reply⟩ =>
      reply = .ok () ∧ currency = caller.currency ∧
        Answers older caller rate ∧
          ∃ stored, ReadClock older caller stored ∧
            expiresAt = PyFloat.after stored world.settings.rateCacheTtlS
  | _ => True

/-- Every entry follows from those before it. -/
def Consistent (world : World) : Journal appSig Caller → Prop
  | [] => True
  | ⟨caller, answer⟩ :: older =>
      FollowsFrom world older caller answer ∧ Consistent world older

theorem Consistent.split {world : World} {newer older : Journal appSig Caller}
    {caller : Caller} {answer : Answer appSig}
    (consistent : Consistent world (newer ++ ⟨caller, answer⟩ :: older)) :
    FollowsFrom world older caller answer ∧ Consistent world older := by
  induction newer with
  | nil => exact consistent
  | cons entry rest inductionHypothesis =>
      exact inductionHypothesis consistent.2

/-- The last entry of a list is found at its end only when it is nowhere
else. -/
theorem append_eq_concat {α : Type} {initial early late : List α} {last : α}
    (absent : last ∉ initial)
    (same : initial ++ [last] = early ++ last :: late) :
    early = initial ∧ late = [] := by
  rcases List.eq_nil_or_concat late with rfl | ⟨middle, final, rfl⟩
  · exact ⟨(List.append_inj' same rfl).1.symm, rfl⟩
  · rw [List.concat_eq_append, ← List.cons_append, ← List.append_assoc] at same
    have inside := (List.append_inj' same rfl).1
    exact absurd (by rw [inside]; simp) absent

theorem not_mem_of_misses {currency : String} {check : AppTrace}
    (misses : Misses currency check) {answer : Answer appSig}
    (isStore : ∃ other rate expiresAt,
      answer.command = .cacheSet other rate expiresAt) : answer ∉ check := by
  obtain ⟨other, rate, expiresAt, isStore⟩ := isStore
  intro member
  cases misses with
  | absent =>
      rw [List.mem_singleton] at member
      rw [member] at isStore
      cases isStore
  | expired =>
      simp only [List.mem_cons, List.not_mem_nil, or_false] at member
      rcases member with rfl | rfl
      · cases isStore
      · cases isStore

/-- Before a lookup stores a rate, the service has answered it to the lookup,
and the lookup has read the clock. -/
theorem plays_getRate_cacheSet {world : World} {currency stored : String}
    {rate : Decimal} {expiresAt : ℚ} {early late : AppTrace}
    {reply : Except PyException Unit} {outcome : Except PyException Decimal}
    (played : (getRate world currency).Plays
      (early ++ ⟨.cacheSet stored rate expiresAt, reply⟩ :: late) outcome)
    (answered : LocalAnswers
      (early ++ ⟨.cacheSet stored rate expiresAt, reply⟩ :: late)) :
    stored = currency ∧
      (∃ response : HttpResponse,
        ⟨.httpGet currency, .ok response⟩ ∈ early ∧
          200 ≤ response.statusCode ∧ response.statusCode < 300 ∧
            response.rate = .ok rate) ∧
        ∃ now, ⟨.monotonic, .ok now⟩ ∈ early ∧
          expiresAt = PyFloat.after now world.settings.rateCacheTtlS := by
  have member : (⟨.cacheSet stored rate expiresAt, reply⟩ : Answer appSig) ∈
      early ++ ⟨.cacheSet stored rate expiresAt, reply⟩ :: late := by
    simp
  rcases plays_getRate played answered with
    ⟨found, _, hits⟩ | ⟨check, answer, rest, same, misses, judged, ends⟩
  · generalize early ++ ⟨.cacheSet stored rate expiresAt, reply⟩ :: late =
      trace at hits member
    cases hits with
    | fresh => simp at member
  · have notInCheck :
        (⟨.cacheSet stored rate expiresAt, reply⟩ : Answer appSig) ∉ check :=
      not_mem_of_misses misses ⟨stored, rate, expiresAt, rfl⟩
    rcases ends with ⟨error, _, rfl⟩ | ⟨got, ok, stores⟩
    · rw [same] at member
      simp [notInCheck] at member
    · obtain ⟨response, rfl, success⟩ := success_of_judge (judged.symm.trans ok)
      cases stores with
      | «until» now =>
          have isLast :
              (⟨.cacheSet stored rate expiresAt, reply⟩ : Answer appSig) =
                ⟨.cacheSet currency got
                  (PyFloat.after now world.settings.rateCacheTtlS), .ok ()⟩ := by
            rw [same] at member
            simpa [notInCheck] using member
          cases isLast
          have shape : (check ++ [⟨.httpGet currency, .ok response⟩,
                ⟨.monotonic, .ok now⟩]) ++
              [⟨.cacheSet currency rate
                (PyFloat.after now world.settings.rateCacheTtlS), .ok ()⟩] =
              early ++ ⟨.cacheSet currency rate
                (PyFloat.after now world.settings.rateCacheTtlS),
                  .ok ()⟩ :: late := by
            rw [same, List.append_assoc]
            rfl
          obtain ⟨rfl, _⟩ := append_eq_concat (by simp [notInCheck]) shape
          exact ⟨rfl, ⟨response, by simp, success⟩, now, by simp, rfl⟩

/-! ## The invariant -/

/-- The journal is consistent, and it says what the process remembers. -/
structure Journaled (world : World) (state : State)
    (log : Journal appSig Caller) : Prop where
  consistent : Consistent world log
  cache : ∀ currency,
    (state.memory (.worker 0)).cache currency = lastStored log currency
  clock : ∀ caller now, ReadClock log caller now →
    now.value ≤ (state.memory (.worker 0)).clock.value

/-- The commands of a consistent journal that stay in the process were
answered. -/
theorem Consistent.localAnswers {world : World}
    {log : Journal appSig Caller} (consistent : Consistent world log)
    {caller : Caller} {currency : String}
    (looksUp : ∀ answer ∈ ownTrace log caller,
      answer.command.LooksUp currency) :
    LocalAnswers (ownTrace log caller) := by
  intro answer member inside
  have issued := looksUp answer member
  obtain ⟨newer, older, rfl⟩ :=
    List.append_of_mem (mem_ownTrace_iff.mp member)
  have follows := consistent.split.1
  obtain ⟨command, reply⟩ := answer
  cases command with
  | cacheGet other => exact ⟨_, follows⟩
  | monotonic =>
      obtain ⟨now, same, _⟩ := follows
      exact ⟨now, same⟩
  | cacheSet other rate expiresAt => exact ⟨(), follows.1⟩
  | httpGet other => cases inside
  | _ => exact issued.elim

/-- Some continuation of a lookup comes to an end. -/
theorem exists_plays_of_leads {world : World} {currency : String}
    {trace : AppTrace} {left : App Decimal}
    (leads : (getRate world currency).Leads trace left)
    (answered : LocalAnswers trace) :
    ∃ more outcome, (getRate world currency).Plays (trace ++ more) outcome ∧
      left.Plays more outcome ∧ LocalAnswers (trace ++ more) := by
  have answers : ∀ command : appSig.Command, ∃ reply,
      LocallyAnswered ⟨command, reply⟩ := by
    intro command
    cases command with
    | cacheGet other => exact ⟨.ok none, fun _ => ⟨_, rfl⟩⟩
    | cacheSet other rate expiresAt => exact ⟨.ok (), fun _ => ⟨_, rfl⟩⟩
    | monotonic => exact ⟨.ok ClockReading.zero, fun _ => ⟨_, rfl⟩⟩
    | utcNow => exact ⟨.ok (0 : Int), fun _ => ⟨_, rfl⟩⟩
    | random => exact ⟨.ok UnitDraw.zero, fun _ => ⟨_, rfl⟩⟩
    | sleep delay => exact ⟨.ok (), fun _ => ⟨_, rfl⟩⟩
    | inc counter => exact ⟨.ok (), fun _ => ⟨_, rfl⟩⟩
    | observe note => exact ⟨.ok (), fun _ => ⟨_, rfl⟩⟩
    | _ => exact ⟨.error undecodable, fun inside => by cases inside⟩
  obtain ⟨more, outcome, played, good⟩ := Prog.exists_plays answers left
  refine ⟨more, outcome, leads.trans played, played, ?_⟩
  intro answer member inside
  rcases List.mem_append.mp member with early | late
  · exact answered answer early inside
  · exact good answer late inside

/-- One command of a lookup keeps the journal true. -/
theorem Journaled.command {world : World} {state reached : State}
    {log : Journal appSig Caller} {caller : Caller} {command : Command}
    {resume : Except PyException command.Reply → App Decimal}
    {choice : Choice} {reply : Except PyException command.Reply}
    (journaled : Journaled world state log)
    (leads : (getRate world caller.currency).Leads (ownTrace log caller)
      (.call command resume))
    (performed :
      exec world state (.consume 0) command choice = some (reply, reached)) :
    Journaled world reached (⟨caller, ⟨command, reply⟩⟩ :: log) := by
  have uses := looksUp_getRate world caller.currency
  have looksUp : command.LooksUp caller.currency := (leads.uses_left uses).1
  cases command with
  | cacheGet currency =>
      cases performed
      exact {
        consistent := ⟨congrArg Except.ok (journaled.cache currency),
          journaled.consistent⟩
        cache := journaled.cache
        clock := by
          intro other now read
          rcases List.mem_cons.mp read with different | older
          · cases different
          · exact journaled.clock other now older }
  | monotonic =>
      simp only [exec, TxnEvents.monotonic] at performed
      split at performed
      case isTrue => cases performed
      case isFalse notBefore =>
        cases performed
        have upToDate : ∀ other earlier, ReadClock log other earlier →
            earlier.value ≤ choice.clock.value := by
          intro other earlier read
          exact (journaled.clock other earlier read).trans (not_lt.mp notBefore)
        exact {
          consistent := ⟨⟨choice.clock, rfl, upToDate⟩, journaled.consistent⟩
          cache := by
            intro currency
            simp only [State.setLocal, Tid.process, Function.update_self]
            exact journaled.cache currency
          clock := by
            intro other now read
            simp only [State.setLocal, Tid.process, Function.update_self]
            rcases List.mem_cons.mp read with same | older
            · cases same
              exact le_refl _
            · exact upToDate other now older }
  | httpGet currency =>
      have memory : reached.memory = state.memory := by
        simp only [exec, TxnEvents.httpGet, Option.some.injEq, Prod.mk.injEq]
          at performed
        rw [← performed.2]
        split <;> rfl
      exact {
        consistent := ⟨trivial, journaled.consistent⟩
        cache := by
          intro other
          rw [memory]
          exact journaled.cache other
        clock := by
          intro other now read
          rw [memory]
          rcases List.mem_cons.mp read with different | older
          · cases different
          · exact journaled.clock other now older }
  | cacheSet currency rate expiresAt =>
      cases performed
      have answered : LocalAnswers (ownTrace log caller) :=
        journaled.consistent.localAnswers (leads.uses uses)
      have longer : LocalAnswers (ownTrace log caller ++
          [⟨.cacheSet currency rate expiresAt, .ok ()⟩]) := by
        intro answer member
        rcases List.mem_append.mp member with early | last
        · exact answered answer early
        · rw [List.mem_singleton.mp last]
          exact fun _ => ⟨(), rfl⟩
      obtain ⟨more, outcome, played, _, allAnswered⟩ :=
        exists_plays_of_leads (leads.snoc (.ok ())) longer
      rw [List.append_assoc] at played allAnswered
      obtain ⟨same, ⟨response, got, success⟩, now, read, expiry⟩ :=
        plays_getRate_cacheSet played allAnswered
      exact {
        consistent := by
          refine ⟨⟨rfl, same, ⟨response, mem_ownTrace_iff.mp got, success⟩,
            now, mem_ownTrace_iff.mp read, expiry⟩, journaled.consistent⟩
        cache := by
          intro other
          simp only [TxnEvents.cacheSet, State.setLocal, Tid.process,
            Function.update_self, lastStored]
          by_cases equal : currency = other
          · subst equal
            rw [Function.update_self, if_pos rfl]
          · rw [Function.update_of_ne (Ne.symm equal), if_neg equal]
            exact journaled.cache other
        clock := by
          intro other time earlier
          simp only [TxnEvents.cacheSet, State.setLocal, Tid.process,
            Function.update_self]
          rcases List.mem_cons.mp earlier with different | older
          · cases different
          · exact journaled.clock other time older }
  | _ => exact looksUp.elim

section Sound

variable {world : World} {log : Journal appSig Caller} {caller : Caller}

end Sound

end TxnEvents
