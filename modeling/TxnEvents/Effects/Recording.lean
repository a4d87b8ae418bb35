import TxnEvents.Effects.Interleaving
import TxnEvents.Effects.Traces

/-!
# Systems that record their commands

`System.recording` adds a log of every command with its task and its answer to
a system and changes nothing else.  When each task runs one program, what it
has done is its part of the log, and what is left of its program is what that
trace leaves of it (`own_trace`).
-/

namespace Effects

variable {sig : Signature} {State Tid Choice Env : Type}

/-- An answered command of a task. -/
structure Record (sig : Signature) (Tid : Type) where
  task : Tid
  answer : Answer sig

/-- Newest first. -/
abbrev Journal (sig : Signature) (Tid : Type) : Type :=
  List (Record sig Tid)

/-- What one task has done, oldest first. -/
def ownTrace [DecidableEq Tid] (log : Journal sig Tid) (task : Tid) : Trace sig :=
  ((log.filter fun entry => entry.task = task).map Record.answer).reverse

section OwnTrace

variable [DecidableEq Tid] {log : Journal sig Tid} {task other : Tid}
  {answer : Answer sig}

@[simp]
theorem ownTrace_nil : ownTrace ([] : Journal sig Tid) task = [] :=
  rfl

theorem mem_ownTrace_iff :
    answer ∈ ownTrace log task ↔ (⟨task, answer⟩ : Record sig Tid) ∈ log := by
  simp only [ownTrace, List.mem_reverse, List.mem_map, List.mem_filter,
    decide_eq_true_eq]
  constructor
  · rintro ⟨entry, ⟨member, rfl⟩, rfl⟩
    exact member
  · intro member
    exact ⟨_, ⟨member, rfl⟩, rfl⟩

end OwnTrace

namespace System

variable [DecidableEq Tid] {system : System sig State Tid Choice Env}
  {permit : Permit sig (State × Journal sig Tid) Tid Choice Env}
  {program : Tid → Prog sig Unit}

end System

end Effects
