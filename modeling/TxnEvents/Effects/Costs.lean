import Mathlib.Algebra.BigOperators.Group.Finset.Basic
import Mathlib.Algebra.BigOperators.Pi
import TxnEvents.Effects.Interleaving

/-!
# What programs cost

Every answered command has a cost in a commutative group.  `Prog.Costs`
follows a program through all answers that are allowed and adds up what it has
spent, and `Prog.Spends` fixes that amount for a program that returns.

In a run the tasks that pay keep one account each.  A measure of the shared
state that moves by the cost of every command is the sum of the accounts, and
it is zero whenever the programs that are left will spend nothing.
-/

namespace Effects

/-- Which answers a program may get. -/
abbrev Answering (sig : Signature) : Type :=
  (command : sig.Command) → Except sig.Error (sig.Reply command) → Prop

/-- The cost of every answered command. -/
abbrev Tariff (sig : Signature) (G : Type) : Type :=
  (command : sig.Command) → Except sig.Error (sig.Reply command) → G

namespace Prog

variable {sig : Signature} {α β G : Type} [AddCommGroup G]

/-- Whatever the allowed answers are, the program ends with an outcome and a
total that satisfy `post`. -/
def Costs (allowed : Answering sig) (tariff : Tariff sig G)
    (post : Except sig.Error α → G → Prop) : Prog sig α → G → Prop
  | ret value, spent => post (.ok value) spent
  | raise error, spent => post (.error error) spent
  | call command resume, spent =>
      ∀ reply, allowed command reply →
        (resume reply).Costs allowed tariff post (spent + tariff command reply)

/-- The program returns, whatever the allowed answers are, and it has spent
this amount. -/
def Spends (allowed : Answering sig) (tariff : Tariff sig G) (amount : G)
    (body : Prog sig α) : Prop :=
  ∀ spent, body.Costs allowed tariff
    (fun outcome total =>
      (∃ value, outcome = .ok value) ∧ total = spent + amount)
    spent

/-- The command is free, whatever it is answered. -/
def Free (tariff : Tariff sig G) (command : sig.Command) : Prop :=
  ∀ reply, tariff command reply = 0

variable {allowed : Answering sig} {tariff : Tariff sig G}

theorem Costs.mono {post weaker : Except sig.Error α → G → Prop}
    {body : Prog sig α} {spent : G}
    (costs : body.Costs allowed tariff post spent)
    (weaken : ∀ outcome total, post outcome total → weaker outcome total) :
    body.Costs allowed tariff weaker spent := by
  induction body generalizing spent with
  | ret value => exact weaken _ _ costs
  | raise error => exact weaken _ _ costs
  | call command resume inductionHypothesis =>
      intro reply answered
      exact inductionHypothesis reply (costs reply answered)

theorem Costs.bind {post : Except sig.Error β → G → Prop}
    {body : Prog sig α} {next : α → Prog sig β} {spent : G}
    (costs : body.Costs allowed tariff
      (fun outcome total =>
        match outcome with
        | .ok value => (next value).Costs allowed tariff post total
        | .error error => post (.error error) total)
      spent) :
    (body.bind next).Costs allowed tariff post spent := by
  induction body generalizing spent with
  | ret value => exact costs
  | raise error => exact costs
  | call command resume inductionHypothesis =>
      intro reply answered
      exact inductionHypothesis reply (costs reply answered)

theorem Costs.attempt
    {post : Except sig.Error (Except sig.Error α) → G → Prop}
    {body : Prog sig α} {spent : G}
    (costs : body.Costs allowed tariff
      (fun outcome total => post (.ok outcome) total) spent) :
    body.attempt.Costs allowed tariff post spent := by
  induction body generalizing spent with
  | ret value => exact costs
  | raise error => exact costs
  | call command resume inductionHypothesis =>
      intro reply answered
      exact inductionHypothesis reply (costs reply answered)

theorem Costs.tryExcept {post : Except sig.Error α → G → Prop}
    {body : Prog sig α} {handler : sig.Error → Prog sig α} {spent : G}
    (costs : body.Costs allowed tariff
      (fun outcome total =>
        match outcome with
        | .ok value => post (.ok value) total
        | .error error => (handler error).Costs allowed tariff post total)
      spent) :
    (body.tryExcept handler).Costs allowed tariff post spent := by
  apply Costs.bind
  apply Costs.attempt
  apply costs.mono
  intro outcome total ended
  cases outcome with
  | ok value => exact ended
  | error error => exact ended

theorem Costs.perform {command : sig.Command}
    {post : Except sig.Error (sig.Reply command) → G → Prop} {spent : G}
    (here : ∀ reply, allowed command reply →
      post reply (spent + tariff command reply)) :
    (Prog.perform command).Costs allowed tariff post spent := by
  intro reply answered
  have paid : post reply (spent + tariff command reply) := here reply answered
  cases reply with
  | ok value => exact paid
  | error error => exact paid

/-- Free commands cost nothing. -/
theorem Costs.of_uses {post : Except sig.Error α → G → Prop}
    {body : Prog sig α} {spent : G} (uses : body.Uses (Free tariff))
    (ends : ∀ outcome, post outcome spent) :
    body.Costs allowed tariff post spent := by
  induction body with
  | ret value => exact ends (.ok value)
  | raise error => exact ends (.error error)
  | call command resume inductionHypothesis =>
      intro reply answered
      have free : tariff command reply = 0 := uses.1 reply
      rw [free, add_zero]
      exact inductionHypothesis reply (uses.2 reply)

/-- Two starts of one program differ as its two ends do. -/
theorem Costs.spent_add {body : Prog sig α} {first second early late : G}
    (answerable : ∀ command, ∃ reply, allowed command reply)
    (one : body.Costs allowed tariff (fun _ total => total = early) first)
    (other : body.Costs allowed tariff (fun _ total => total = late) second) :
    first + late = second + early := by
  induction body generalizing first second with
  | ret value =>
      have ended : first = early := one
      have endedLate : second = late := other
      rw [ended, endedLate, add_comm]
  | raise error =>
      have ended : first = early := one
      have endedLate : second = late := other
      rw [ended, endedLate, add_comm]
  | call command resume inductionHypothesis =>
      obtain ⟨reply, answered⟩ := answerable command
      have moved := inductionHypothesis reply (one reply answered)
        (other reply answered)
      rw [add_right_comm, add_right_comm second] at moved
      exact add_right_cancel moved

section Spends

variable {amount more : G}

theorem Spends.ret (value : α) :
    (Prog.ret value : Prog sig α).Spends allowed tariff 0 :=
  fun spent => ⟨⟨value, rfl⟩, (add_zero spent).symm⟩

/-- A command whose answer is no error and costs this much. -/
theorem Spends.perform {command : sig.Command}
    (here : ∀ reply, allowed command reply →
      (∃ value, reply = .ok value) ∧ tariff command reply = amount) :
    (Prog.perform command).Spends allowed tariff amount := by
  intro spent
  apply Costs.perform
  intro reply answered
  obtain ⟨succeeded, cost⟩ := here reply answered
  rw [cost]
  exact ⟨succeeded, rfl⟩

/-- What follows starts with the amount spent. -/
theorem Spends.andThen {post : Except sig.Error β → G → Prop}
    {body : Prog sig α} {next : α → Prog sig β} {spent : G}
    (spends : body.Spends allowed tariff amount)
    (later : ∀ value,
      (next value).Costs allowed tariff post (spent + amount)) :
    (body.bind next).Costs allowed tariff post spent := by
  apply Costs.bind
  apply (spends spent).mono
  intro outcome total ended
  obtain ⟨⟨value, returned⟩, same⟩ := ended
  rw [returned, same]
  exact later value

theorem Spends.bind {body : Prog sig α} {next : α → Prog sig β}
    (first : body.Spends allowed tariff amount)
    (rest : ∀ value, (next value).Spends allowed tariff more) :
    (body.bind next).Spends allowed tariff (amount + more) := by
  intro spent
  apply first.andThen
  intro value
  rw [← add_assoc]
  exact rest value (spent + amount)

theorem Spends.forEach {items : List α} {body : α → Prog sig Unit}
    (each : ∀ item, (body item).Spends allowed tariff 0) :
    (Prog.forEach items body).Spends allowed tariff 0 := by
  induction items with
  | nil => exact Spends.ret ()
  | cons item rest inductionHypothesis =>
      rw [← add_zero (0 : G)]
      exact (each item).bind fun _ => inductionHypothesis

theorem Spends.costs_zero {body : Prog sig α}
    (spends : body.Spends allowed tariff 0) :
    body.Costs allowed tariff (fun _ total => total = 0) 0 := by
  apply (spends 0).mono
  intro outcome total ended
  rw [ended.2, add_zero]

end Spends

end Prog

/-! ## Accounts -/

section Accounts

variable {sig : Signature} {State Tid G : Type} [AddCommGroup G]

/-- An account that the rest of the program settles. -/
def Covers (allowed : Answering sig) (tariff : Tariff sig G)
    (program : Option (Prog sig Unit)) (spent : G) : Prop :=
  match program with
  | none => spent = 0
  | some body =>
      body.Costs allowed tariff (fun _ total => total = 0) spent

/-- The accounts of the tasks that pay. -/
structure Accounts (measure : State → G) (allowed : Answering sig)
    (tariff : Tid → Tariff sig G) (payers : Finset Tid)
    (config : Config sig State Tid) (spent : Tid → G) : Prop where
  total : measure config.shared = ∑ task ∈ payers, spent task
  covers : ∀ task ∈ payers,
    Covers allowed (tariff task) (config.tasks task) (spent task)
  free : ∀ task ∉ payers, ∀ program, config.tasks task = some program →
    program.Uses (Prog.Free (tariff task))

namespace Accounts

variable {measure : State → G} {allowed : Answering sig}
  {tariff : Tid → Tariff sig G} {payers : Finset Tid}
  {config : Config sig State Tid} {spent : Tid → G}

theorem sum_update [DecidableEq Tid] {task : Tid} {cost : G}
    (free : task ∉ payers → cost = 0) :
    ∑ other ∈ payers, Function.update spent task (spent task + cost) other =
      (∑ other ∈ payers, spent other) + cost := by
  by_cases pays : task ∈ payers
  · rw [Finset.sum_update_of_mem pays, Finset.sdiff_singleton_eq_erase,
      ← Finset.add_sum_erase payers spent pays, add_right_comm]
  · rw [Finset.sum_update_of_notMem pays, free pays, add_zero]

/-- One answered command is put on the account of its task. -/
theorem run [DecidableEq Tid] {task : Tid} {command : sig.Command}
    {resume : Except sig.Error (sig.Reply command) → Prog sig Unit}
    {reply : Except sig.Error (sig.Reply command)} {left : State}
    (accounts : Accounts measure allowed tariff payers config spent)
    (running : config.tasks task = some (.call command resume))
    (answered : allowed command reply)
    (paid : measure left = measure config.shared + tariff task command reply) :
    Accounts measure allowed tariff payers
      ⟨left, Function.update config.tasks task (some (resume reply))⟩
      (Function.update spent task
        (spent task + tariff task command reply)) where
  total := by
    have free : task ∉ payers → tariff task command reply = 0 :=
      fun absent => (accounts.free task absent _ running).1 reply
    rw [paid, accounts.total, sum_update free]
  covers := by
    intro other member
    by_cases same : other = task
    · have owed := accounts.covers other member
      rw [same, running] at owed
      simp only [same, Function.update_self]
      exact owed reply answered
    · simp only [Function.update_of_ne same]
      exact accounts.covers other member
  free := by
    intro other absent program runs
    by_cases same : other = task
    · have uses := accounts.free task (same ▸ absent) _ running
      simp only [same, Function.update_self, Option.some.injEq] at runs
      rw [same, ← runs]
      exact uses.2 reply
    · simp only [Function.update_of_ne same] at runs
      exact accounts.free other absent program runs

/-- Programs that spend nothing take the place of those that have returned and
start where none runs; what does not pay may also stop. -/
theorem reassign {after : Config sig State Tid}
    (accounts : Accounts measure allowed tariff payers config spent)
    (same : measure after.shared = measure config.shared)
    (stops : ∀ task ∈ payers,
      after.tasks task = none → config.tasks task = none)
    (starts : ∀ task ∈ payers, ∀ program, after.tasks task = some program →
      config.tasks task = some program ∨
        (config.tasks task = none ∨ config.tasks task = some (.ret ())) ∧
          program.Spends allowed (tariff task) 0)
    (others : ∀ task ∉ payers, ∀ program, after.tasks task = some program →
      config.tasks task = some program ∨
        program.Uses (Prog.Free (tariff task))) :
    Accounts measure allowed tariff payers after spent where
  total := by rw [same, accounts.total]
  covers := by
    intro task member
    have covered := accounts.covers task member
    cases runs : after.tasks task with
    | none =>
        rw [stops task member runs] at covered
        exact covered
    | some program =>
        rcases starts task member program runs with
          kept | ⟨stopped | returned, spends⟩
        · rw [kept] at covered
          exact covered
        · rw [stopped] at covered
          have settled : spent task = 0 := covered
          rw [settled]
          exact spends.costs_zero
        · rw [returned] at covered
          have settled : spent task = 0 := covered
          rw [settled]
          exact spends.costs_zero
  free := by
    intro task absent program runs
    cases others task absent program runs with
    | inl kept => exact accounts.free task absent program kept
    | inr uses => exact uses

/-- When the programs that are left will spend nothing, the accounts are
settled. -/
theorem measure_eq_zero
    (answerable : ∀ command, ∃ reply, allowed command reply)
    (accounts : Accounts measure allowed tariff payers config spent)
    (settled : ∀ task ∈ payers, ∀ program, config.tasks task = some program →
      program.Spends allowed (tariff task) 0) :
    measure config.shared = 0 := by
  rw [accounts.total]
  apply Finset.sum_eq_zero
  intro task member
  have covered := accounts.covers task member
  cases runs : config.tasks task with
  | none =>
      rw [runs] at covered
      exact covered
  | some program =>
      rw [runs] at covered
      have settles := Prog.Costs.spent_add answerable covered
        (settled task member program runs).costs_zero
      rwa [add_zero, add_zero] at settles

end Accounts

end Accounts

end Effects
