import TxnEvents.Delivery.NoLoss
import TxnEvents.Ledger.Listing

/-!
# Pages and windows tile

What the two read paths of the repository answer on a table that stays as it
is.  The pages of a user are the user's rows, each once; adjacent windows join
without a gap; and the summary adds up what the pages list.
-/

namespace TxnEvents

open Effects Arith

/-- Every statement sees this table. -/
def seeing (table : Table) :
    (command : Command) → Except PyException command.Reply
  | .select => .ok table
  | _ => .error { cls := .other, text := "not a statement" }

/-- One page of the table and its total. -/
def listed (world : World) (table : Table) (userId : String)
    (start stop : Option DateTime) (limit offset : Nat) :
    Except PyException (Table × Nat) :=
  (listUserTransactions world userId start stop limit offset).endsWith
    (seeing table)

/-- The pages at offsets 0, `limit`, 2 * `limit` and so on, `count` of them. -/
def listedPages (world : World) (table : Table) (userId : String)
    (start stop : Option DateTime) (limit count : Nat) :
    Except PyException (List (Table × Nat)) :=
  (List.range count).mapM fun number =>
    listed world table userId start stop limit (number * limit)

def summarized (table : Table) (userId : String) :
    Except PyException (Numeric 4 × Nat) :=
  (userSummary userId).endsWith (seeing table)

/-- The bounds of a listing as the driver sends them. -/
def driverWindow (world : World) (start stop : Option DateTime) : Window where
  start := start.map (driverInstant (world.localZone .api))
  stop := stop.map (driverInstant (world.localZone .api))

/-- All rows of a listing, on one page. -/
def listing (world : World) (table : Table) (userId : String)
    (start stop : Option DateTime) : Table :=
  newestFirst world.collation table userId (driverWindow world start stop)

section Pages

variable {world : World} {table : Table} {userId : String}
  {start stop : Option DateTime} {limit count : Nat}

theorem listed_eq (world : World) (table : Table) (userId : String)
    (start stop : Option DateTime) (limit offset : Nat) :
    listed world table userId start stop limit offset =
      .ok (Paging.page (listing world table userId start stop) limit offset,
        (listing world table userId start stop).length) := by
  have total : pageTotal table userId (driverWindow world start stop) =
      (listing world table userId start stop).length :=
    length_newestFirst.symm
  rw [← total]
  rfl

theorem listedPages_eq (world : World) (table : Table) (userId : String)
    (start stop : Option DateTime) (limit count : Nat) :
    listedPages world table userId start stop limit count =
      .ok ((List.range count).map fun number =>
        (Paging.page (listing world table userId start stop) limit
          (number * limit),
          (listing world table userId start stop).length)) := by
  simp only [listedPages, listed_eq]
  exact List.mapM_pure

/-- The pages one after the other, and their totals. -/
theorem listedPages_tile
    (enough : (listing world table userId start stop).length ≤ count * limit) :
    ∃ answers, listedPages world table userId start stop limit count =
        .ok answers ∧
      (answers.map Prod.fst).flatten =
          listing world table userId start stop ∧
        ∀ answer ∈ answers,
          answer.2 = (listing world table userId start stop).length := by
  refine ⟨_, listedPages_eq world table userId start stop limit count, ?_, ?_⟩
  · rw [List.map_map]
    exact Paging.flatten_pages_of_enough enough
  · intro answer member
    obtain ⟨number, _, rfl⟩ := List.mem_map.mp member
    rfl

end Pages

section Windows

variable {table : Table} {userId : String}

/-- Rows of a later window are listed first. -/
theorem newer_of_windows {collation : Collation} {bound : Int}
    {later earlier : StoredTransaction} (from_ : bound ≤ later.timestamp)
    (until_ : earlier.timestamp < bound) : Newer collation later earlier :=
  Or.inl (by omega)

/-- Adjacent windows join to one. -/
theorem newestFirst_append {collation : Collation} {low middle high : Int}
    (unique : (table.map StoredTransaction.id).Nodup) (lower : low ≤ middle)
    (upper : middle ≤ high) :
    newestFirst collation table userId ⟨some low, some high⟩ =
      newestFirst collation table userId ⟨some middle, some high⟩ ++
        newestFirst collation table userId ⟨some low, some middle⟩ := by
  have contains : ∀ start stop timestamp : Int,
      Window.Contains ⟨some start, some stop⟩ timestamp ↔
        start ≤ timestamp ∧ timestamp < stop := by
    intro start stop timestamp
    simp [Window.Contains]
  apply newestFirst_eq_of_ordered unique
  · rw [List.pairwise_append]
    refine ⟨newestFirst_ordered unique, newestFirst_ordered unique, ?_⟩
    intro later laterMember earlier earlierMember
    obtain ⟨_, _, above⟩ := mem_newestFirst.mp laterMember
    obtain ⟨_, _, below⟩ := mem_newestFirst.mp earlierMember
    exact newer_of_windows ((contains _ _ _).mp above).1
      ((contains _ _ _).mp below).2
  · rw [List.perm_ext_iff_of_nodup]
    · intro row
      rw [List.mem_append, mem_newestFirst, mem_newestFirst, mem_matching,
        contains, contains, contains]
      constructor
      · rintro (⟨inTable, mine, from_, until_⟩ | ⟨inTable, mine, from_, until_⟩)
        · exact ⟨inTable, mine, by omega, until_⟩
        · exact ⟨inTable, mine, from_, by omega⟩
      · rintro ⟨inTable, mine, from_, until_⟩
        by_cases recent : middle ≤ row.timestamp
        · exact Or.inl ⟨inTable, mine, recent, until_⟩
        · exact Or.inr ⟨inTable, mine, from_, by omega⟩
    · rw [List.nodup_append]
      refine ⟨(newestFirst_ids_nodup unique).of_map,
        (newestFirst_ids_nodup unique).of_map, ?_⟩
      intro later laterMember earlier earlierMember same
      obtain ⟨_, _, above⟩ := mem_newestFirst.mp laterMember
      obtain ⟨_, _, below⟩ := mem_newestFirst.mp earlierMember
      have from_ := ((contains _ _ _).mp above).1
      have until_ := ((contains _ _ _).mp below).2
      rw [same] at from_
      omega
    · exact (unique.sublist ((matching_sublist table userId _).map _)).of_map

/-- Without bounds every row of the user is listed. -/
theorem matching_open (table : Table) (userId : String) :
    matching table userId ⟨none, none⟩ =
      table.filter fun row => row.userId = userId := by
  rw [matching]
  apply List.filter_congr
  intro row _
  simp [Window.Contains]

/-- The summary adds up the listing without bounds. -/
theorem summaryOf_listing (collation : Collation) (table : Table)
    (userId : String) :
    summaryOf table userId =
      (((newestFirst collation table userId ⟨none, none⟩).map
          StoredTransaction.amountUsd).sum,
        (newestFirst collation table userId ⟨none, none⟩).length) := by
  have same := newestFirst_perm collation table userId ⟨none, none⟩
  rw [matching_open] at same
  have sums := (same.map StoredTransaction.amountUsd).sum_eq
  rw [sums, same.length_eq]
  rfl

theorem summarized_eq (world : World) (table : Table) (userId : String) :
    summarized table userId =
      .ok (((listing world table userId none none).map
          StoredTransaction.amountUsd).sum,
        (listing world table userId none none).length) := by
  change Except.ok (summaryOf table userId) = _
  rw [summaryOf_listing world.collation]
  rfl

end Windows

/-- Enough pages of at least one row hold any listing. -/
theorem length_le_of_count {limit count length : Nat} (positive : 1 ≤ limit)
    (enough : length ≤ count) : length ≤ count * limit :=
  Nat.le_trans enough (Nat.le_mul_of_pos_right count positive)

/-- What a client may rely on when it reads a table that stays as it is. -/
structure ReadsAgree (world : World) (table : Table) (userId : String)
    (limit : Nat) : Prop where
  /-- A listing is the user's rows in the window, each once. -/
  exact_ : ∀ start stop, (listing world table userId start stop).Perm
    (table.filter fun row => row.userId = userId ∧
      (driverWindow world start stop).Contains row.timestamp)
  once : ∀ start stop, ((listing world table userId start stop).map
    StoredTransaction.id).Nodup
  ordered : ∀ start stop,
    (listing world table userId start stop).Pairwise (Newer world.collation)
  /-- The pages at 0, `limit`, 2 * `limit` and so on join to the listing, and
  each reports its length. -/
  pages : ∀ start stop, ∃ enough, ∀ count ≥ enough,
      ∃ answers, listedPages world table userId start stop limit count =
          .ok answers ∧
        (answers.map Prod.fst).flatten =
            listing world table userId start stop ∧
          ∀ answer ∈ answers,
            answer.2 = (listing world table userId start stop).length
  /-- Adjacent windows join to one. -/
  windows : ∀ early middle late : DateTime,
    driverInstant (world.localZone .api) early ≤
        driverInstant (world.localZone .api) middle →
      driverInstant (world.localZone .api) middle ≤
          driverInstant (world.localZone .api) late →
        listing world table userId (some middle) (some late) ++
            listing world table userId (some early) (some middle) =
          listing world table userId (some early) (some late)
  /-- The summary adds up the pages without bounds. -/
  summary : ∃ enough, ∀ count ≥ enough,
    ∃ answers, listedPages world table userId none none limit count =
        .ok answers ∧
      summarized table userId =
        .ok (((answers.map Prod.fst).flatten.map
            StoredTransaction.amountUsd).sum,
          (listing world table userId none none).length)
  empty : summarized table userId = .ok (0, 0) ↔
    listing world table userId none none = []

/-- On every table with unique ids the pages and windows of every user tile,
and the two read paths agree. -/
theorem reads_agree {world : World} {table : Table}
    (unique : (table.map StoredTransaction.id).Nodup) (userId : String)
    {limit : Nat} (positive : 1 ≤ limit) :
    ReadsAgree world table userId limit where
  exact_ := fun start stop => newestFirst_perm world.collation table userId _
  once := fun start stop => newestFirst_ids_nodup unique
  ordered := fun start stop => newestFirst_ordered unique
  pages := by
    intro start stop
    refine ⟨(listing world table userId start stop).length, ?_⟩
    intro count enough
    exact listedPages_tile (length_le_of_count positive enough)
  windows := by
    intro early middle late lower upper
    exact (newestFirst_append unique lower upper).symm
  summary := by
    refine ⟨(listing world table userId none none).length, ?_⟩
    intro count enough
    obtain ⟨answers, answered, joined, _⟩ :=
      listedPages_tile (length_le_of_count positive enough)
    refine ⟨answers, answered, ?_⟩
    rw [joined]
    exact summarized_eq world table userId
  empty := by
    rw [summarized_eq world table userId]
    constructor
    · intro zero
      have count := congrArg Prod.snd (Except.ok.inj zero)
      exact List.eq_nil_of_length_eq_zero count
    · intro none
      rw [none]
      rfl

/-- Two rows of one user at the same moment. -/
def twins : Table :=
  ["a", "b"].map fun id => {
    id, userId := "ada", amount := .units 10000, currency := "EUR"
    rate := .units 110000000, amountUsd := .units 11000, timestamp := 0
    processedAt := 0 }

theorem reads_agree_twins :
    twins.length = 2 ∧ ReadsAgree (coffeeWorld {}) twins "ada" 1 :=
  ⟨rfl, reads_agree (by decide) "ada" (by decide)⟩

end TxnEvents
