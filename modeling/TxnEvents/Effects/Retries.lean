import TxnEvents.Effects.Traces

/-!
# Operations that are tried again

An operation is tried again after a retriable outcome, with a pause in
between.  `Exhausts` says that every attempt was used up in vain, `Settles`
that one of them ended the trying.  `Repeats` cuts the trace of the whole into
its attempts and pauses.
-/

namespace Effects

section Outcomes

variable {Outcome : Type}

/-- All `attempts` outcomes were retriable. -/
structure Exhausts (retriable : Outcome → Prop) (attempts : Nat)
    (outcomes : List Outcome) : Prop where
  all : ∀ outcome ∈ outcomes, retriable outcome
  count : outcomes.length = attempts

/-- The last of at most `attempts` outcomes is the first that is not
retriable. -/
structure Settles (retriable : Outcome → Prop) (attempts : Nat)
    (outcomes : List Outcome) (last : Outcome) : Prop where
  before : ∃ earlier, outcomes = earlier ++ [last] ∧
    ∀ outcome ∈ earlier, retriable outcome
  final : ¬ retriable last
  count : outcomes.length ≤ attempts

variable {retriable : Outcome → Prop} {attempts : Nat}
  {outcomes : List Outcome} {first last : Outcome}

theorem Exhausts.single (again : retriable first) :
    Exhausts retriable 1 [first] where
  all := by
    intro outcome member
    rw [List.mem_singleton] at member
    rw [member]
    exact again
  count := rfl

theorem Exhausts.cons (again : retriable first)
    (exhausts : Exhausts retriable attempts outcomes) :
    Exhausts retriable (attempts + 1) (first :: outcomes) where
  all := by
    intro outcome member
    rcases List.mem_cons.mp member with same | later
    · rw [same]
      exact again
    · exact exhausts.all outcome later
  count := by
    rw [List.length_cons, exhausts.count]

theorem Settles.single (done : ¬ retriable last) (some : 1 ≤ attempts) :
    Settles retriable attempts [last] last where
  before := ⟨[], rfl, by simp⟩
  final := done
  count := some

theorem Settles.cons (again : retriable first)
    (settles : Settles retriable attempts outcomes last) :
    Settles retriable (attempts + 1) (first :: outcomes) last where
  before := by
    obtain ⟨earlier, same, all⟩ := settles.before
    refine ⟨first :: earlier, by rw [same, List.cons_append], ?_⟩
    intro outcome member
    rcases List.mem_cons.mp member with same | later
    · rw [same]
      exact again
    · exact all outcome later
  final := settles.final
  count := by
    rw [List.length_cons]
    exact Nat.succ_le_succ settles.count

theorem Settles.mem (settles : Settles retriable attempts outcomes last) :
    last ∈ outcomes := by
  obtain ⟨earlier, same, _⟩ := settles.before
  rw [same]
  exact List.mem_append_right earlier (List.mem_singleton_self last)

theorem Settles.unique {other : Outcome}
    (settles : Settles retriable attempts outcomes last)
    (again : Settles retriable attempts outcomes other) : last = other := by
  obtain ⟨earlier, same, _⟩ := settles.before
  obtain ⟨before, same', _⟩ := again.before
  rw [same] at same'
  exact List.singleton_inj.mp (List.append_inj' same' rfl).2

theorem not_settles_nil : ¬ Settles retriable attempts [] last := by
  intro settles
  exact List.not_mem_nil settles.mem

theorem not_exhausts_nil (positive : 1 ≤ attempts) :
    ¬ Exhausts retriable attempts [] := by
  intro exhausts
  have count := exhausts.count
  rw [List.length_nil] at count
  omega

/-- Trying ends in one way only. -/
theorem Settles.not_exhausts
    (settles : Settles retriable attempts outcomes last) :
    ¬ Exhausts retriable attempts outcomes := by
  intro exhausts
  exact settles.final (exhausts.all last settles.mem)

end Outcomes

section Repeats

variable {sig : Signature} {Outcome : Type}

/-- Attempts with pauses between them, and what each attempt came to. -/
inductive Repeats (shows : Trace sig → Outcome → Prop)
    (pauses : Trace sig → Prop) : Trace sig → List Outcome → Prop
  | last {trace : Trace sig} {outcome : Outcome} :
      shows trace outcome → Repeats shows pauses trace [outcome]
  | again {early pause late : Trace sig} {outcome : Outcome}
      {outcomes : List Outcome} :
      shows early outcome → pauses pause →
        Repeats shows pauses late outcomes →
          Repeats shows pauses (early ++ (pause ++ late))
            (outcome :: outcomes)

variable {shows : Trace sig → Outcome → Prop} {pauses : Trace sig → Prop}
  {trace : Trace sig} {outcomes : List Outcome}

theorem Repeats.shown (repeats : Repeats shows pauses trace outcomes) :
    ∀ outcome ∈ outcomes, ∃ attempt, shows attempt outcome := by
  induction repeats with
  | last here =>
      intro outcome member
      rw [List.mem_singleton] at member
      rw [member]
      exact ⟨_, here⟩
  | again here _ _ inductionHypothesis =>
      intro outcome member
      rcases List.mem_cons.mp member with same | later
      · rw [same]
        exact ⟨_, here⟩
      · exact inductionHypothesis outcome later

/-- A view of traces that shows every attempt alone, and no pause, shows the
attempts of the whole in order. -/
theorem Repeats.view {β : Type} {view : Trace sig → List β}
    {see : Outcome → List β}
    (repeats : Repeats shows pauses trace outcomes)
    (shown : ∀ attempt outcome, shows attempt outcome →
      ∀ late, view (attempt ++ late) = see outcome ++ view late)
    (paused : ∀ pause, pauses pause →
      ∀ late, view (pause ++ late) = view late) (later : Trace sig) :
    view (trace ++ later) = outcomes.flatMap see ++ view later := by
  induction repeats with
  | last here =>
      rw [shown _ _ here, List.flatMap_singleton]
  | again here between _ inductionHypothesis =>
      rw [List.append_assoc, List.append_assoc, shown _ _ here,
        paused _ between, inductionHypothesis, List.flatMap_cons,
        List.append_assoc]

end Repeats

end Effects
