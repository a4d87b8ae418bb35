import TxnEvents.Effects.Program
import Mathlib.Tactic.Choose

/-!
# Traces of one program

What a single program does, seen from inside: the commands it issues and what
each is answered, whoever answers.  `Leads` says what is left of a program
after a trace, `Plays` that the trace takes it to its end.  Every interleaving
shows each of its programs one trace, so a fact about all traces of a program
holds in all runs.
-/

namespace Effects

/-- A command and its answer. -/
structure Answer (sig : Signature) where
  command : sig.Command
  reply : Except sig.Error (sig.Reply command)

/-- The commands of a program with their answers, oldest first. -/
abbrev Trace (sig : Signature) : Type :=
  List (Answer sig)

namespace Prog

variable {sig : Signature} {α β : Type}

/-- After this trace of the first program the second one is left. -/
inductive Leads : Prog sig α → Trace sig → Prog sig α → Prop
  | stay (body : Prog sig α) : Leads body [] body
  | call {command : sig.Command}
      {resume : Except sig.Error (sig.Reply command) → Prog sig α}
      {reply : Except sig.Error (sig.Reply command)} {trace : Trace sig}
      {left : Prog sig α} :
      Leads (resume reply) trace left →
        Leads (.call command resume) (⟨command, reply⟩ :: trace) left

/-- The program ends with this outcome after this trace. -/
def Plays (body : Prog sig α) (trace : Trace sig)
    (outcome : Except sig.Error α) : Prop :=
  Leads body trace (ofExcept outcome)

theorem Leads.trans {first second third : Prog sig α}
    {early late : Trace sig} (begins : Leads first early second)
    (continues : Leads second late third) :
    Leads first (early ++ late) third := by
  induction begins with
  | stay body => exact continues
  | call _ inductionHypothesis =>
      exact Leads.call (inductionHypothesis continues)

@[simp]
theorem leads_ret_iff {value : α} {trace : Trace sig} {left : Prog sig α} :
    Leads (.ret value) trace left ↔ trace = [] ∧ left = .ret value := by
  constructor
  · intro leads
    cases leads with
    | stay => exact ⟨rfl, rfl⟩
  · rintro ⟨rfl, rfl⟩
    exact Leads.stay _

@[simp]
theorem leads_raise_iff {error : sig.Error} {trace : Trace sig}
    {left : Prog sig α} :
    Leads (.raise error) trace left ↔ trace = [] ∧ left = .raise error := by
  constructor
  · intro leads
    cases leads with
    | stay => exact ⟨rfl, rfl⟩
  · rintro ⟨rfl, rfl⟩
    exact Leads.stay _

theorem leads_call_iff {command : sig.Command}
    {resume : Except sig.Error (sig.Reply command) → Prog sig α}
    {trace : Trace sig} {left : Prog sig α} :
    Leads (.call command resume) trace left ↔
      trace = [] ∧ left = .call command resume ∨
        ∃ reply rest, trace = ⟨command, reply⟩ :: rest ∧
          Leads (resume reply) rest left := by
  constructor
  · intro leads
    cases leads with
    | stay => exact Or.inl ⟨rfl, rfl⟩
    | call rest => exact Or.inr ⟨_, _, rfl, rest⟩
  · rintro (⟨rfl, rfl⟩ | ⟨reply, rest, rfl, leads⟩)
    · exact Leads.stay _
    · exact Leads.call leads

@[simp]
theorem plays_ret_iff {value : α} {trace : Trace sig}
    {outcome : Except sig.Error α} :
    Plays (.ret value) trace outcome ↔
      trace = [] ∧ outcome = .ok value := by
  rw [Plays, leads_ret_iff]
  cases outcome with
  | ok other => simp [ofExcept]
  | error error => simp [ofExcept]

@[simp]
theorem plays_raise_iff {error : sig.Error} {trace : Trace sig}
    {outcome : Except sig.Error α} :
    Plays (.raise error) trace outcome ↔
      trace = [] ∧ outcome = .error error := by
  rw [Plays, leads_raise_iff]
  cases outcome with
  | ok value => simp [ofExcept]
  | error other => simp [ofExcept]

theorem plays_call_iff {command : sig.Command}
    {resume : Except sig.Error (sig.Reply command) → Prog sig α}
    {trace : Trace sig} {outcome : Except sig.Error α} :
    Plays (.call command resume) trace outcome ↔
      ∃ reply rest, trace = ⟨command, reply⟩ :: rest ∧
        Plays (resume reply) rest outcome := by
  rw [Plays, leads_call_iff]
  constructor
  · rintro (⟨_, impossible⟩ | continues)
    · cases outcome with
      | ok value => cases impossible
      | error error => cases impossible
    · exact continues
  · exact Or.inr

theorem plays_ofExcept_iff {result outcome : Except sig.Error α}
    {trace : Trace sig} :
    Plays (ofExcept result) trace outcome ↔
      trace = [] ∧ outcome = result := by
  cases result with
  | ok value => exact plays_ret_iff
  | error error => exact plays_raise_iff

theorem plays_perform_iff {command : sig.Command} {trace : Trace sig}
    {outcome : Except sig.Error (sig.Reply command)} :
    Plays (perform command) trace outcome ↔ trace = [⟨command, outcome⟩] := by
  rw [perform, plays_call_iff]
  constructor
  · rintro ⟨reply, rest, rfl, continues⟩
    obtain ⟨rfl, rfl⟩ := plays_ofExcept_iff.mp continues
    rfl
  · rintro rfl
    exact ⟨outcome, [], rfl, plays_ofExcept_iff.mpr ⟨rfl, rfl⟩⟩

/-- Sequencing plays the first program to its end and then, unless it raised,
the second one. -/
theorem plays_bind_iff {body : Prog sig α} {next : α → Prog sig β}
    {trace : Trace sig} {outcome : Except sig.Error β} :
    Plays (body.bind next) trace outcome ↔
      (∃ value early late, trace = early ++ late ∧
        Plays body early (.ok value) ∧ Plays (next value) late outcome) ∨
      ∃ error, outcome = .error error ∧ Plays body trace (.error error) := by
  induction body generalizing trace with
  | ret value =>
      constructor
      · intro continues
        exact Or.inl ⟨value, [], trace, rfl, plays_ret_iff.mpr ⟨rfl, rfl⟩,
          continues⟩
      · rintro (⟨other, early, late, rfl, first, continues⟩ |
          ⟨error, _, first⟩)
        · obtain ⟨rfl, same⟩ := plays_ret_iff.mp first
          cases same
          exact continues
        · cases (plays_ret_iff.mp first).2
  | raise error =>
      constructor
      · intro raised
        obtain ⟨rfl, rfl⟩ := plays_raise_iff.mp raised
        exact Or.inr ⟨error, rfl, plays_raise_iff.mpr ⟨rfl, rfl⟩⟩
      · rintro (⟨value, early, late, rfl, first, _⟩ | ⟨other, rfl, first⟩)
        · cases (plays_raise_iff.mp first).2
        · obtain ⟨rfl, same⟩ := plays_raise_iff.mp first
          cases same
          exact plays_raise_iff.mpr ⟨rfl, rfl⟩
  | call command resume inductionHypothesis =>
      constructor
      · intro played
        obtain ⟨reply, rest, rfl, continues⟩ := plays_call_iff.mp played
        rcases (inductionHypothesis reply).mp continues with
          ⟨value, early, late, rfl, first, second⟩ | ⟨error, rfl, first⟩
        · exact Or.inl ⟨value, ⟨command, reply⟩ :: early, late, rfl,
            Leads.call first, second⟩
        · exact Or.inr ⟨error, rfl, Leads.call first⟩
      · rintro (⟨value, early, late, rfl, first, second⟩ | ⟨error, rfl, first⟩)
        · obtain ⟨reply, rest, rfl, continues⟩ := plays_call_iff.mp first
          exact Leads.call ((inductionHypothesis reply).mpr
            (Or.inl ⟨value, rest, late, rfl, continues, second⟩))
        · obtain ⟨reply, rest, rfl, continues⟩ := plays_call_iff.mp first
          exact Leads.call ((inductionHypothesis reply).mpr
            (Or.inr ⟨error, rfl, continues⟩))

theorem plays_attempt_iff {body : Prog sig α} {trace : Trace sig}
    {outcome : Except sig.Error (Except sig.Error α)} :
    Plays body.attempt trace outcome ↔
      ∃ ended, outcome = .ok ended ∧ Plays body trace ended := by
  induction body generalizing trace with
  | ret value =>
      rw [attempt, plays_ret_iff]
      constructor
      · rintro ⟨rfl, rfl⟩
        exact ⟨_, rfl, plays_ret_iff.mpr ⟨rfl, rfl⟩⟩
      · rintro ⟨ended, rfl, played⟩
        obtain ⟨rfl, rfl⟩ := plays_ret_iff.mp played
        exact ⟨rfl, rfl⟩
  | raise error =>
      rw [attempt, plays_ret_iff]
      constructor
      · rintro ⟨rfl, rfl⟩
        exact ⟨_, rfl, plays_raise_iff.mpr ⟨rfl, rfl⟩⟩
      · rintro ⟨ended, rfl, played⟩
        obtain ⟨rfl, rfl⟩ := plays_raise_iff.mp played
        exact ⟨rfl, rfl⟩
  | call command resume inductionHypothesis =>
      rw [attempt, plays_call_iff]
      constructor
      · rintro ⟨reply, rest, rfl, continues⟩
        obtain ⟨ended, rfl, played⟩ :=
          (inductionHypothesis reply).mp continues
        exact ⟨ended, rfl, Leads.call played⟩
      · rintro ⟨ended, rfl, played⟩
        obtain ⟨reply, rest, rfl, continues⟩ := plays_call_iff.mp played
        exact ⟨reply, rest, rfl,
          (inductionHypothesis reply).mpr ⟨ended, rfl, continues⟩⟩

theorem plays_tryExcept_iff {body : Prog sig α}
    {handler : sig.Error → Prog sig α} {trace : Trace sig}
    {outcome : Except sig.Error α} :
    Plays (body.tryExcept handler) trace outcome ↔
      (∃ value, outcome = .ok value ∧ Plays body trace (.ok value)) ∨
      ∃ error early late, trace = early ++ late ∧
        Plays body early (.error error) ∧
          Plays (handler error) late outcome := by
  rw [tryExcept, plays_bind_iff]
  constructor
  · rintro (⟨ended, early, late, rfl, first, second⟩ | ⟨error, rfl, raised⟩)
    · obtain ⟨_, same, played⟩ := plays_attempt_iff.mp first
      cases same
      cases ended with
      | ok value =>
          obtain ⟨rfl, rfl⟩ := plays_ret_iff.mp second
          rw [List.append_nil]
          exact Or.inl ⟨value, rfl, played⟩
      | error error =>
          exact Or.inr ⟨error, early, late, rfl, played, second⟩
    · obtain ⟨_, impossible, _⟩ := plays_attempt_iff.mp raised
      cases impossible
  · rintro (⟨value, rfl, played⟩ | ⟨error, early, late, rfl, played, handled⟩)
    · exact Or.inl ⟨.ok value, trace, [], (List.append_nil trace).symm,
        plays_attempt_iff.mpr ⟨_, rfl, played⟩,
        plays_ret_iff.mpr ⟨rfl, rfl⟩⟩
    · exact Or.inl ⟨.error error, early, late, rfl,
        plays_attempt_iff.mpr ⟨_, rfl, played⟩, handled⟩

/-- The one more answer at the end of a trace. -/
theorem Leads.snoc {body : Prog sig α} {trace : Trace sig}
    {command : sig.Command}
    {resume : Except sig.Error (sig.Reply command) → Prog sig α}
    (leads : Leads body trace (.call command resume))
    (reply : Except sig.Error (sig.Reply command)) :
    Leads body (trace ++ [⟨command, reply⟩]) (resume reply) :=
  leads.trans (Leads.call (Leads.stay _))

section Answers

variable (answer : Trace sig → (command : sig.Command) →
  Except sig.Error (sig.Reply command))

/-- The trace of a program whose commands are answered in view of what went
before, newest first. -/
def traceWith : Prog sig α → Trace sig → Trace sig
  | ret _, _ => []
  | raise _, _ => []
  | call command resume, before =>
      ⟨command, answer before command⟩ ::
        (resume (answer before command)).traceWith
          (⟨command, answer before command⟩ :: before)

/-- How such a program ends. -/
def outcomeWith : Prog sig α → Trace sig → Except sig.Error α
  | ret value, _ => .ok value
  | raise error, _ => .error error
  | call command resume, before =>
      (resume (answer before command)).outcomeWith
        (⟨command, answer before command⟩ :: before)

theorem plays_traceWith (body : Prog sig α) (before : Trace sig) :
    Plays body (body.traceWith answer before)
      (body.outcomeWith answer before) := by
  induction body generalizing before with
  | ret value => exact plays_ret_iff.mpr ⟨rfl, rfl⟩
  | raise error => exact plays_raise_iff.mpr ⟨rfl, rfl⟩
  | call command resume inductionHypothesis =>
      exact Leads.call (inductionHypothesis _ _)

variable {answer} in
theorem all_traceWith {good : Answer sig → Prop}
    (proper : ∀ before command, good ⟨command, answer before command⟩)
    (body : Prog sig α) (before : Trace sig) :
    ∀ answered ∈ body.traceWith answer before, good answered := by
  induction body generalizing before with
  | ret value =>
      intro answered member
      cases member
  | raise error =>
      intro answered member
      cases member
  | call command resume inductionHypothesis =>
      intro answered member
      rw [traceWith] at member
      rcases List.mem_cons.mp member with same | later
      · rw [same]
        exact proper before command
      · exact inductionHypothesis _ _ answered later

end Answers

/-- A program that always gets an answer comes to an end. -/
theorem exists_plays {good : Answer sig → Prop}
    (answers : ∀ command, ∃ reply, good ⟨command, reply⟩)
    (body : Prog sig α) :
    ∃ trace outcome, Plays body trace outcome ∧ ∀ answer ∈ trace, good answer := by
  choose reply proper using answers
  exact ⟨_, _, plays_traceWith (fun _ => reply) body [],
    all_traceWith (fun _ => proper) body []⟩

/-- Whatever a program may use is all that its traces contain. -/
theorem Leads.uses {allowed : sig.Command → Prop} {body left : Prog sig α}
    {trace : Trace sig} (leads : Leads body trace left)
    (inside : Uses allowed body) :
    ∀ answer ∈ trace, allowed answer.command := by
  induction leads with
  | stay body =>
      intro answer member
      cases member
  | call _ inductionHypothesis =>
      intro answer member
      rcases List.mem_cons.mp member with rfl | later
      · exact inside.1
      · exact inductionHypothesis (inside.2 _) answer later

/-- What is left of a program uses no more than the program. -/
theorem Leads.uses_left {allowed : sig.Command → Prop}
    {body left : Prog sig α} {trace : Trace sig}
    (leads : Leads body trace left) (inside : Uses allowed body) :
    Uses allowed left := by
  induction leads with
  | stay body => exact inside
  | call _ inductionHypothesis => exact inductionHypothesis (inside.2 _)

/-- Part of a sequence is part of the first program, or all of it and part of
the second one. -/
theorem Leads.of_bind {body : Prog sig α} {next : α → Prog sig β}
    {trace : Trace sig} {left : Prog sig β}
    (leads : Leads (body.bind next) trace left) :
    (∃ rest, Leads body trace rest ∧ left = rest.bind next) ∨
      ∃ value early late, trace = early ++ late ∧
        Plays body early (.ok value) ∧ Leads (next value) late left := by
  induction body generalizing trace with
  | ret value =>
      exact Or.inr ⟨value, [], trace, rfl, plays_ret_iff.mpr ⟨rfl, rfl⟩, leads⟩
  | raise error =>
      rcases leads_raise_iff.mp leads with ⟨rfl, rfl⟩
      exact Or.inl ⟨.raise error, Leads.stay _, rfl⟩
  | call command resume inductionHypothesis =>
      rcases leads_call_iff.mp leads with
        ⟨rfl, rfl⟩ | ⟨reply, later, rfl, continues⟩
      · exact Or.inl ⟨.call command resume, Leads.stay _, rfl⟩
      · rcases inductionHypothesis reply continues with
          ⟨rest, inside, same⟩ | ⟨value, early, late, rfl, played, beyond⟩
        · exact Or.inl ⟨rest, Leads.call inside, same⟩
        · exact Or.inr ⟨value, ⟨command, reply⟩ :: early, late, rfl,
            Leads.call played, beyond⟩

end Prog

end Effects
