import Mathlib.Data.List.Dedup
import Mathlib.Data.List.Perm.Subperm
import Mathlib.Data.Set.Insert
import TxnEvents.Effects.Refinement

/-!
# A pipeline from a log to a table

Entries are published to a log.  Rows that entries account for are recorded in
a table, at most one for each key.  Entries that are given up are buried, as
letters.  An entry is settled only when it is buried or its key has a row.

Nothing here says how often an entry is delivered, by whom, and what fails on
the way.  The pipeline is what is left when all of that is forgotten.
-/

namespace Streams

open Effects

/-- How entries, rows and letters belong together. -/
structure Contract (Entry Row Letter Key : Type) where
  keyOf : Entry → Option Key
  key : Row → Key
  origin : Letter → Nat
  explains : Entry → Row → Prop
  replays : Entry → Letter → Prop
  keyOf_of_explains : ∀ entry row, explains entry row →
    keyOf entry = some (key row)

/-- What the pipeline keeps. -/
@[ext]
structure Register (Entry Row Letter : Type) where
  log : List Entry
  table : List Row
  letters : List Letter
  settled : Set Nat

inductive Booking (Entry Row Letter : Type)
  | publish (entry : Entry)
  | record (row : Row)
  | bury (letter : Letter)
  | settle (id : Nat)

namespace Contract

variable {Entry Row Letter Key : Type}
  (contract : Contract Entry Row Letter Key)

/-- The entry is buried, or its key has a row. -/
inductive Accounted (books : Register Entry Row Letter) (id : Nat) : Prop
  | buried (letter : Letter) :
      letter ∈ books.letters → contract.origin letter = id →
        Accounted books id
  | recorded (entry : Entry) (row : Row) :
      books.log[id]? = some entry → row ∈ books.table →
        contract.keyOf entry = some (contract.key row) → Accounted books id

inductive Step :
    Register Entry Row Letter → Booking Entry Row Letter →
      Register Entry Row Letter → Prop
  | publish (books : Register Entry Row Letter) (entry : Entry) :
      Step books (.publish entry)
        { books with log := books.log ++ [entry] }
  | record {books : Register Entry Row Letter} {entry : Entry} {row : Row} :
      entry ∈ books.log → contract.explains entry row →
        contract.key row ∉ books.table.map contract.key →
          Step books (.record row)
            { books with table := books.table ++ [row] }
  | bury {books : Register Entry Row Letter} {entry : Entry} {letter : Letter} :
      books.log[contract.origin letter]? = some entry →
        contract.replays entry letter →
          Step books (.bury letter)
            { books with letters := books.letters ++ [letter] }
  | settle {books : Register Entry Row Letter} {id : Nat} :
      id < books.log.length → id ∉ books.settled →
        contract.Accounted books id →
          Step books (.settle id)
            { books with settled := insert id books.settled }

/-- The pipeline, with nothing published. -/
def pipeline :
    Machine (Register Entry Row Letter) (Booking Entry Row Letter) where
  start := ⟨[], [], [], ∅⟩
  step := contract.Step

/-! ## What every booking keeps -/

/-- The books are in order. -/
structure Sound (books : Register Entry Row Letter) : Prop where
  unique : (books.table.map contract.key).Nodup
  explained : ∀ row ∈ books.table, ∃ entry ∈ books.log,
    contract.explains entry row
  replayed : ∀ letter ∈ books.letters, ∃ entry,
    books.log[contract.origin letter]? = some entry ∧
      contract.replays entry letter
  accounted : ∀ id ∈ books.settled, contract.Accounted books id

variable {contract} {books before after : Register Entry Row Letter}
  {booking : Booking Entry Row Letter} {id : Nat}

theorem getElem?_of_prefix {earlier later : List Entry} {entry : Entry}
    (longer : earlier <+: later) (found : earlier[id]? = some entry) :
    later[id]? = some entry := by
  rcases longer with ⟨newer, rfl⟩
  rw [List.getElem?_append_left (List.getElem?_eq_some_iff.mp found).1]
  exact found

theorem Accounted.grow (accounted : contract.Accounted before id)
    (log : before.log <+: after.log) (table : before.table <+: after.table)
    (letters : before.letters <+: after.letters) :
    contract.Accounted after id := by
  cases accounted with
  | buried letter member origin =>
      exact .buried letter (letters.subset member) origin
  | recorded entry row found member key =>
      refine .recorded entry row ?_ (table.subset member) key
      exact getElem?_of_prefix log found

theorem Sound.start : contract.Sound contract.pipeline.start where
  unique := List.nodup_nil
  explained := by
    intro row member
    cases member
  replayed := by
    intro letter member
    cases member
  accounted := by
    intro id member
    cases member

/-- One booking leaves the books in order. -/
theorem Sound.step (sound : contract.Sound before)
    (taken : contract.Step before booking after) : contract.Sound after := by
  cases taken with
  | publish entry =>
      have longer : before.log <+: before.log ++ [entry] :=
        List.prefix_append _ _
      refine ⟨sound.unique, ?_, ?_, ?_⟩
      · intro row member
        rcases sound.explained row member with ⟨source, listed, explains⟩
        exact ⟨source, longer.subset listed, explains⟩
      · intro letter member
        rcases sound.replayed letter member with ⟨source, found, replays⟩
        exact ⟨source, getElem?_of_prefix longer found, replays⟩
      · intro id member
        exact (sound.accounted id member).grow longer (List.prefix_refl _)
          (List.prefix_refl _)
  | record listed explains fresh =>
      have longer := List.prefix_append before.table
      refine ⟨?_, ?_, sound.replayed, ?_⟩
      · rw [List.map_append, List.map_singleton]
        refine List.nodup_append.mpr ⟨sound.unique, List.nodup_singleton _, ?_⟩
        intro old member new same equal
        rw [List.mem_singleton.mp same] at equal
        rw [equal] at member
        exact fresh member
      · intro row member
        rcases List.mem_append.mp member with old | new
        · exact sound.explained row old
        · rw [List.mem_singleton.mp new]
          exact ⟨_, listed, explains⟩
      · intro id member
        exact (sound.accounted id member).grow (List.prefix_refl _)
          (longer _) (List.prefix_refl _)
  | bury found replays =>
      have longer := List.prefix_append before.letters
      refine ⟨sound.unique, sound.explained, ?_, ?_⟩
      · intro letter member
        rcases List.mem_append.mp member with old | new
        · exact sound.replayed letter old
        · rw [List.mem_singleton.mp new]
          exact ⟨_, found, replays⟩
      · intro id member
        exact (sound.accounted id member).grow (List.prefix_refl _)
          (List.prefix_refl _) (longer _)
  | settle below unsettled accounted =>
      refine ⟨sound.unique, sound.explained, sound.replayed, ?_⟩
      intro id member
      rcases member with new | old
      · rw [new]
        exact accounted.grow (List.prefix_refl _) (List.prefix_refl _)
          (List.prefix_refl _)
      · exact (sound.accounted id old).grow (List.prefix_refl _)
          (List.prefix_refl _) (List.prefix_refl _)

/-! ## The balance -/

section Balance

variable [DecidableEq Key]

/-- The different keys of what was published. -/
def keys (contract : Contract Entry Row Letter Key)
    (books : Register Entry Row Letter) : List Key :=
  (books.log.filterMap contract.keyOf).dedup

theorem mem_keys {key : Key} :
    key ∈ contract.keys books ↔
      ∃ entry ∈ books.log, contract.keyOf entry = some key := by
  rw [keys, List.mem_dedup, List.mem_filterMap]

/-- Every row has the key of an entry, and no other row has it. -/
theorem Sound.subperm_keys (sound : contract.Sound books) :
    (books.table.map contract.key).Subperm (contract.keys books) := by
  refine sound.unique.subperm ?_
  intro key member
  rcases List.mem_map.mp member with ⟨row, recorded, rfl⟩
  rcases sound.explained row recorded with ⟨entry, listed, explains⟩
  exact mem_keys.mpr
    ⟨entry, listed, contract.keyOf_of_explains entry row explains⟩

theorem Sound.length_table_le (sound : contract.Sound books) :
    books.table.length ≤ (contract.keys books).length := by
  rw [← List.length_map (f := contract.key)]
  exact sound.subperm_keys.length_le

/-- When everything is settled, a key without a row was buried. -/
theorem Sound.length_keys_le (sound : contract.Sound books)
    (settled : ∀ id < books.log.length, id ∈ books.settled) :
    (contract.keys books).length ≤
      books.table.length + books.letters.length := by
  let buried (letter : Letter) : Option Key :=
    books.log[contract.origin letter]?.bind contract.keyOf
  have covered : contract.keys books ⊆
      books.table.map contract.key ++ books.letters.filterMap buried := by
    intro key member
    rcases mem_keys.mp member with ⟨entry, listed, named⟩
    rcases List.getElem?_of_mem listed with ⟨id, found⟩
    have below := (List.getElem?_eq_some_iff.mp found).1
    cases sound.accounted id (settled id below) with
    | buried letter given origin =>
        refine List.mem_append_right _
          (List.mem_filterMap.mpr ⟨letter, given, ?_⟩)
        change books.log[contract.origin letter]?.bind contract.keyOf = _
        rw [origin, found, Option.bind_some, named]
    | recorded other row there recorded same =>
        rw [found] at there
        cases there
        rw [named] at same
        cases same
        exact List.mem_append_left _ (List.mem_map_of_mem recorded)
  have distinct : (contract.keys books).Nodup := List.nodup_dedup _
  have bound := (distinct.subperm covered).length_le
  have few := List.length_filterMap_le buried books.letters
  rw [List.length_append, List.length_map] at bound
  omega

end Balance

end Contract

end Streams
