import Mathlib.Data.List.Basic

/-!
# Append-only logs with trimming

A stream is an append-only list of entries.  The id of an entry is its
position in order of arrival, so ids grow with time and are never reused.
Trimming removes the oldest entries that are left; the log remembers every
entry it ever held, and `trimmed` says how many of the oldest are gone.

The length bound of an approximate trim fixes how many entries must stay, not
which prefix goes: `MayTrim` collects the legal outcomes.
-/

namespace Streams

/-- A log of `Fields` whose first `trimmed` entries are no longer there. -/
structure Log (Fields : Type) where
  entries : List Fields
  trimmed : Nat
  bounded : trimmed ≤ entries.length

namespace Log

variable {Fields : Type}

def empty : Log Fields :=
  ⟨[], 0, Nat.le_refl 0⟩

/-- The entry with this id is still in the stream. -/
def Live (log : Log Fields) (id : Nat) : Prop :=
  log.trimmed ≤ id ∧ id < log.entries.length

instance (log : Log Fields) (id : Nat) : Decidable (log.Live id) :=
  inferInstanceAs (Decidable (_ ∧ _))

/-- Append one entry; its id is the old length. -/
def add (log : Log Fields) (fields : Fields) : Log Fields where
  entries := log.entries ++ [fields]
  trimmed := log.trimmed
  bounded := by
    have before := log.bounded
    simp only [List.length_append, List.length_singleton]
    omega

/-- Drop what is left of the first `upTo` entries. -/
def trim (log : Log Fields) (upTo : Nat) : Log Fields where
  entries := log.entries
  trimmed := max log.trimmed (min upTo log.entries.length)
  bounded := by
    have before := log.bounded
    omega

/-- A trim to about `keep` entries may drop the first `upTo`: it drops nothing
that is still there, or at least `keep` entries stay. -/
def MayTrim (log : Log Fields) (keep upTo : Nat) : Prop :=
  upTo ≤ log.trimmed ∨ upTo + keep ≤ log.entries.length

instance (log : Log Fields) (keep upTo : Nat) :
    Decidable (log.MayTrim keep upTo) :=
  inferInstanceAs (Decidable (_ ∨ _))

@[simp]
theorem add_entries (log : Log Fields) (fields : Fields) :
    (log.add fields).entries = log.entries ++ [fields] :=
  rfl

@[simp]
theorem add_trimmed (log : Log Fields) (fields : Fields) :
    (log.add fields).trimmed = log.trimmed :=
  rfl

@[simp]
theorem trim_entries (log : Log Fields) (upTo : Nat) :
    (log.trim upTo).entries = log.entries :=
  rfl

theorem trimmed_le_trim (log : Log Fields) (upTo : Nat) :
    log.trimmed ≤ (log.trim upTo).trimmed :=
  Nat.le_max_left _ _

theorem live_add_iff (log : Log Fields) (fields : Fields) (id : Nat) :
    (log.add fields).Live id ↔
      log.Live id ∨ id = log.entries.length := by
  have bounded := log.bounded
  simp only [Live, add_entries, add_trimmed, List.length_append,
    List.length_singleton]
  omega

theorem live_trim_iff (log : Log Fields) (upTo id : Nat) :
    (log.trim upTo).Live id ↔ log.Live id ∧ upTo ≤ id := by
  simp only [Live, trim]
  omega

/-- A trim that keeps every entry of an upper part of the log alive leaves
the same entries there. -/
theorem live_trim_of_mayTrim
    {log : Log Fields} {keep upTo id : Nat}
    (legal : log.MayTrim keep upTo) (live : log.Live id)
    (recent : log.entries.length ≤ id + keep) :
    (log.trim upTo).Live id := by
  rw [live_trim_iff]
  refine ⟨live, ?_⟩
  have present := live.1
  rcases legal with nothing | kept
  · omega
  · omega

end Log

end Streams
