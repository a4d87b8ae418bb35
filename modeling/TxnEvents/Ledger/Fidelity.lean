import TxnEvents.Ledger.ExactlyOnce
import TxnEvents.Paging.Pages
import TxnEvents.Schemas.Posted

/-!
# From the request body to the listed row

An accepted event crosses the JSON document, the request model, the stream
payload, the worker and the columns.  The row that is listed in the end says
what the document said exactly when the document is read as it is and the
columns can hold it: the amount within four fractional digits, the currency
within three characters.
-/

namespace TxnEvents

open Effects Arith Python

/-- The document was read as this body, and the body was answered with 202
and this stream id. -/
def AcceptedPost (reader : NumberReader) (state : State) (posted : PostedEvent)
    (id : Nat) : Prop :=
  ∃ body, posted.typed reader = some body ∧ Accepted state body id

/-- The row says what the document said. -/
structure Faithful (unicode : UnicodeData) (posted : PostedEvent)
    (row : StoredTransaction) : Prop where
  id : row.id = posted.id
  userId : row.userId = posted.userId
  currency : row.currency = upper unicode posted.currency
  timestamp : (row.timestamp : ℚ) = posted.timestamp.instant
  amount : row.amount.value = posted.amount.literal.value

/-- The numbers of the document are read as they are, and the columns hold the
amount and the currency exactly. -/
structure FitsColumns (unicode : UnicodeData) (reader : NumberReader)
    (posted : PostedEvent) : Prop where
  amount : posted.amount.literal.HasScale 4
  amountRead : posted.amount.ReadExactly reader
  currency : (upper unicode posted.currency).toList.length ≤ 3
  timestampRead : posted.timestamp.ReadExactly reader

/-- The row was stored from this entry of the stream. -/
def StoredFor (world : World) (state : State) (id : Nat)
    (row : StoredTransaction) : Prop :=
  ∃ source, StoredFrom world state source row ∧ source.id = id

/-- All transactions of a user. -/
def always : Window :=
  ⟨none, none⟩

theorem always_contains (timestamp : Int) : always.Contains timestamp := by
  constructor
  · intro start impossible
    cases impossible
  · intro stop impossible
    cases impossible

/-! ## The fields of an accepted event -/

section AcceptedEvent

variable (world : World) (body : EventBody) (receivedAt : DateTime)

theorem acceptedEvent_userId :
    (acceptedEvent world body receivedAt).userId = body.userId := by
  simp only [acceptedEvent, TransactionEvent.validate,
    TransactionEventIn.validate, TransactionEventIn.modelDump]

theorem acceptedEvent_amount :
    (acceptedEvent world body receivedAt).amount = body.amount := by
  simp only [acceptedEvent, TransactionEvent.validate,
    TransactionEventIn.validate, TransactionEventIn.modelDump]

theorem acceptedEvent_currency :
    (acceptedEvent world body receivedAt).currency =
      upper world.unicode body.currency := by
  simp only [acceptedEvent, TransactionEvent.validate,
    TransactionEventIn.validate, TransactionEventIn.modelDump, upperCurrency,
    upper_upper]

theorem acceptedEvent_timestamp :
    (acceptedEvent world body receivedAt).timestamp = body.timestamp.orUtc := by
  simp only [acceptedEvent, TransactionEvent.validate,
    TransactionEventIn.validate, TransactionEventIn.modelDump,
    naiveTimestampMeansUtc, DateTime.orUtc_toDateTime]

end AcceptedEvent

/-! ## The stored row -/

/-- What a row stored for an accepted event has in its columns. -/
structure StoredAccepted (unicode : UnicodeData) (body : EventBody)
    (row : StoredTransaction) : Prop where
  id : row.id = body.id
  userId : row.userId = body.userId
  amount : Numeric.coerce 18 4 body.amount = some row.amount
  currency : varcharUpTo 3 (upper unicode body.currency) = .ok row.currency
  timestamp : row.timestamp = body.timestamp.orUtc.instant

theorem storedAccepted {world : World} {state : State} {body : EventBody}
    {streamId : Nat} {row : StoredTransaction}
    (promises : ∀ task request response,
      .noted task (.answered request response) ∈ state.history →
        Promised world state request response)
    (accepted : Accepted state body streamId)
    (stored : StoredFor world state streamId row) :
    StoredAccepted world.unicode body row := by
  obtain ⟨task, response, member, rfl⟩ := accepted
  obtain ⟨_, receivedAt, entry⟩ := promises task _ _ member
  obtain ⟨source, ⟨valid, process, accepted⟩, same⟩ := stored
  have fieldsEq : source.fields =
      publishedFields world.json (acceptedEvent world body receivedAt) := by
    have found := valid.entry
    rw [same, entry] at found
    exact (Option.some.inj found).symm
  have parsed := valid.parsed
  rw [fieldsEq] at parsed
  have event := eq_acceptedEvent_of_parseFields parsed
  have columns := ProcessedTransaction.storedAs_of_toColumns accepted
  have amount : source.row.amount = body.amount := by
    rw [← acceptedEvent_amount world body receivedAt, ← event]
    rfl
  have currency : source.row.currency = upper world.unicode body.currency := by
    rw [← acceptedEvent_currency world body receivedAt, ← event]
    rfl
  have timestamp :
      source.row.timestamp = body.timestamp.orUtc.toDateTime := by
    rw [← acceptedEvent_timestamp world body receivedAt, ← event]
    rfl
  exact {
    id := by
      rw [columns.id, ← acceptedEvent_id world body receivedAt, ← event]
      rfl
    userId := by
      rw [columns.userId, ← acceptedEvent_userId world body receivedAt, ← event]
      rfl
    amount := by
      rw [← columns.amount, amount]
    currency := by
      rw [← columns.currency, currency]
    timestamp := by
      rw [columns.timestamp, timestamp, driverInstant_toDateTime] }

/-- The column keeps the posted amount exactly when it has four digits at most
and is read as it is. -/
theorem amount_kept_iff {reader : NumberReader} {amount : PostedAmount}
    {stored : Numeric 4} (finite : (amount.typed reader).isFinite = true)
    (written : Numeric.coerce 18 4 (amount.typed reader) = some stored) :
    stored.value = amount.literal.value ↔
      amount.literal.HasScale 4 ∧ amount.ReadExactly reader := by
  have exactness := Numeric.coerce_eq_iff_hasScale finite written
  rw [PostedAmount.readExactly_iff]
  constructor
  · intro same
    have short := Numeric.hasScale_of_coerce finite written same
    have kept := exactness.mpr (PostedAmount.hasScale_typed short finite)
    exact ⟨short, by rw [← kept, same]⟩
  · rintro ⟨short, read⟩
    rw [← read]
    exact exactness.mpr (PostedAmount.hasScale_typed short finite)

/-- The columns keep an accepted event exactly when it is read as it is and
fits them. -/
theorem faithful_iff_fitsColumns {unicode : UnicodeData}
    {reader : NumberReader} {posted : PostedEvent} {body : EventBody}
    {row : StoredTransaction} (typed : TypedAs reader posted body)
    (stored : StoredAccepted unicode body row) :
    Faithful unicode posted row ↔ FitsColumns unicode reader posted := by
  have finite := body.amountFinite
  have written := stored.amount
  rw [typed.amount] at finite written
  have amount := amount_kept_iff finite written
  have currency := varcharUpTo_eq_self_iff stored.currency
  have timestamp := PostedTimestamp.readExactly_iff reader posted.timestamp
  rw [← typed.timestamp, ← stored.timestamp] at timestamp
  rw [typed.currency] at currency
  constructor
  · intro faithful
    exact ⟨(amount.mp faithful.amount).1, (amount.mp faithful.amount).2,
      currency.mp faithful.currency, timestamp.mpr faithful.timestamp⟩
  · intro fits
    exact {
      id := stored.id.trans typed.id
      userId := stored.userId.trans typed.userId
      currency := currency.mpr fits.currency
      timestamp := timestamp.mp fits.timestampRead
      amount := amount.mpr ⟨fits.amount, fits.amountRead⟩ }

/-! ## The listing -/

theorem mem_newestFirst_of_mem_pageRows {collation : Collation} {table : Table}
    {userId : String} {window : Window} {limit offset : Nat}
    {row : StoredTransaction}
    (member : row ∈ pageRows collation table userId window limit offset) :
    row ∈ newestFirst collation table userId window :=
  List.mem_of_mem_drop (List.mem_of_mem_take member)

theorem mem_of_mem_pageRows {collation : Collation} {table : Table}
    {userId : String} {window : Window} {limit offset : Nat}
    {row : StoredTransaction}
    (member : row ∈ pageRows collation table userId window limit offset) :
    row ∈ table :=
  (mem_newestFirst.mp (mem_newestFirst_of_mem_pageRows member)).1

/-- The pages of the listing show the rows of the user in the window. -/
theorem exists_mem_pageRows_iff {collation : Collation} {table : Table}
    {userId : String} {window : Window} {limit : Nat}
    {row : StoredTransaction} (positive : 1 ≤ limit) :
    (∃ offset, row ∈ pageRows collation table userId window limit offset) ↔
      row ∈ table ∧ row.userId = userId ∧ window.Contains row.timestamp := by
  constructor
  · rintro ⟨offset, onPage⟩
    exact mem_newestFirst.mp (mem_newestFirst_of_mem_pageRows onPage)
  · intro inside
    have listed : row ∈ newestFirst collation table userId window :=
      mem_newestFirst.mpr inside
    exact ⟨_, Paging.mem_page_of_position listed (Nat.le_refl _)
      (Nat.lt_add_of_pos_right positive)⟩

/-- The listing of the user returns a row that says what the accepted document
said, exactly when the document is read as it is and fits the columns. -/
theorem listed_faithfully_iff_fitsColumns {world : World} {permit : AppPermit}
    {config : AppConfig} (reaches : Reaches world permit config)
    {reader : NumberReader} {posted : PostedEvent} {streamId : Nat}
    (accepted : AcceptedPost reader config.shared posted streamId)
    {row : StoredTransaction} (member : row ∈ config.shared.db.table)
    (stored : StoredFor world config.shared streamId row) {limit : Nat}
    (positive : 1 ≤ limit) :
    (∃ offset, ∃ listed ∈ pageRows world.collation config.shared.db.table
        posted.userId always limit offset,
      Faithful world.unicode posted listed) ↔
      FitsColumns world.unicode reader posted := by
  rcases accepted with ⟨body, read, accepted⟩
  have typed := typedAs_of_typed read
  have safe := reaches_safe_of_any reaches
  have columns := storedAccepted safe.promises accepted stored
  rw [← faithful_iff_fitsColumns typed columns]
  constructor
  · rintro ⟨offset, listed, onPage, faithful⟩
    -- the id has one row only, so the listed row is the stored one
    have same : listed = row :=
      List.inj_on_of_nodup_map safe.db.unique (mem_of_mem_pageRows onPage)
        member (by rw [faithful.id, columns.id, typed.id])
    rw [← same]
    exact faithful
  · intro faithful
    have onSomePage : ∃ offset, row ∈ pageRows world.collation
        config.shared.db.table row.userId always limit offset :=
      (exists_mem_pageRows_iff positive).mpr
        ⟨member, rfl, always_contains row.timestamp⟩
    obtain ⟨offset, onPage⟩ := onSomePage
    rw [columns.userId, typed.userId] at onPage
    exact ⟨offset, row, onPage, faithful⟩

/-- The source of a row in a stream with one entry is that entry. -/
theorem storedFor_zero {world : World} {state : State}
    {row : StoredTransaction} (sourced : Sourced world state row)
    (single : state.redis.stream.entries.length = 1) :
    StoredFor world state 0 row := by
  obtain ⟨source, from_⟩ := sourced
  refine ⟨source, from_, ?_⟩
  obtain ⟨wire, found, _⟩ := Option.bind_eq_some_iff.mp from_.1.entry
  have within := (List.getElem?_eq_some_iff.mp found).1
  omega

theorem coffee_is_stored :
    ∃ config row, Reaches (coffeeWorld {}) Permit.any config ∧
      Accepted config.shared coffee 0 ∧ row ∈ config.shared.db.table ∧
        StoredFor (coffeeWorld {}) config.shared 0 row := by
  have taken : ((system (coffeeWorld {})).run Guard.any start
      (post 0 coffee {} ++ launch 0 ++
        storeOne 0 (.finite false 11 (-1)))).any
        (fun config =>
          config.shared.history.contains coffeeAccepted &&
            decide (config.shared.redis.stream.entries.length = 1) &&
            decide (config.shared.db.table ≠ [])) =
      true := by decide +kernel
  obtain ⟨config, reaches, shown⟩ := reaches_of_run respects_any taken
  simp only [Bool.and_eq_true, decide_eq_true_eq] at shown
  obtain ⟨⟨answered, single⟩, stored⟩ := shown
  obtain ⟨row, member⟩ := List.exists_mem_of_ne_nil _ stored
  have sourced := (reaches_safe_of_any reaches).db.sourced row member
  exact ⟨config, row, reaches,
    accepted_coffee (List.contains_iff_mem.mp answered), member,
    storedFor_zero sourced single⟩

/-- A reader that knows one number which no `float` holds. -/
def NumberReader.sample : NumberReader where
  decimal literal :=
    if literal = .finite false 123456789012345678 (-4) then
      .finite false 12345678901234568 (-3)
    else literal
  microsecond instant := ⌊instant⌋
  decimal_short := by
    intro literal short _
    split
    case isTrue =>
      exact ⟨_, rfl, 123456789012345680, by norm_num [Decimal.signed]⟩
    case isFalse => exact short

/-- The document of `coffee`. -/
def postedCoffee : PostedEvent where
  id := "coffee"
  userId := "ada"
  amount := .string (.finite false 1234 (-2))
  currency := "eur"
  timestamp := .text 0 none

theorem typed_postedCoffee :
    postedCoffee.typed .sample = some coffee := by
  decide +kernel

theorem listed_faithfully_iff_fitsColumns_coffee :
    ∃ config, Reaches (coffeeWorld {}) Permit.any config ∧
      ((∃ offset, ∃ listed ∈ pageRows (coffeeWorld {}).collation
          config.shared.db.table postedCoffee.userId always 50 offset,
        Faithful (coffeeWorld {}).unicode postedCoffee listed) ↔
        FitsColumns (coffeeWorld {}).unicode .sample postedCoffee) := by
  rcases coffee_is_stored with ⟨config, row, reaches, accepted, member, stored⟩
  exact ⟨config, reaches,
    listed_faithfully_iff_fitsColumns reaches
      ⟨coffee, typed_postedCoffee, accepted⟩ member stored (by decide)⟩

/-! ## Amounts that are not kept -/

/-- A posted event that is accepted and stored under its id with another
amount. -/
def StoredAltered (posted : PostedEvent) : Prop :=
  ∃ world config, Reaches world Permit.any config ∧
    AcceptedPost .sample config.shared posted 0 ∧
      config.shared.db.table.map StoredTransaction.id = [posted.id] ∧
        ∀ row ∈ config.shared.db.table,
          row.amount.value ≠ posted.amount.literal.value

/-- A world that knows the JSON form of one body. -/
def loneWorld (body : EventBody) : World :=
  .small Settings.defaults
    [(TransactionEvent.validate .ascii
        ⟨(TransactionEventIn.validate .ascii body).modelDump, ⟨0, some 0⟩⟩,
      "the event")]
    (by simp) (by simp)

/-- The body is accepted, and stored with so many units of the column. -/
def showsStored (body : EventBody) (count : Int) (config : AppConfig) : Bool :=
  config.shared.history.contains
      (.noted (.request 0)
        (.answered (.ingest body) (.ok (.accepted ⟨body.id, 0⟩)))) &&
    decide (config.shared.db.table.map StoredTransaction.id = [body.id]) &&
    config.shared.db.table.all fun row => decide (row.amount = .units count)

theorem storedAltered_of_run {posted : PostedEvent} {body : EventBody}
    (count : Int) (typed : posted.typed .sample = some body)
    (taken : ((system (loneWorld body)).run Guard.any start
      (post 0 body {} ++ launch 0 ++ storeOne 0 (.finite false 11 (-1)))).any
        (showsStored body count) = true)
    (differs : (Numeric.units count : Numeric 4).value ≠
      posted.amount.literal.value) : StoredAltered posted := by
  obtain ⟨config, reaches, shown⟩ := reaches_of_run respects_any taken
  simp only [showsStored, Bool.and_eq_true, decide_eq_true_eq,
    List.all_eq_true] at shown
  obtain ⟨⟨answered, ids⟩, amounts⟩ := shown
  have accepted : Accepted config.shared body 0 :=
    ⟨.request 0, ⟨body.id, 0⟩, List.contains_iff_mem.mp answered, rfl⟩
  refine ⟨loneWorld body, config, reaches, ⟨body, typed, accepted⟩, ?_, ?_⟩
  · rw [ids, (typedAs_of_typed typed).id]
  · intro row member
    rw [amounts row member]
    exact differs

/-- Ada's euros at the start of 1970. -/
def euros (id : String) (amount : PostedAmount) : PostedEvent where
  id := id
  userId := "ada"
  amount := amount
  currency := "eur"
  timestamp := .text 0 none

/-- The same, typed. -/
def typedEuros (id : String) (amount : Decimal)
    (amountFinite : amount.isFinite = true) : EventBody where
  id := id
  userId := "ada"
  amount := amount
  amountFinite := amountFinite
  currency := "eur"
  timestamp := ⟨0, none⟩

theorem typed_euros {id : String} {amount : PostedAmount} {number : Decimal}
    (read : amount.typed .sample = number) (finite : number.isFinite = true) :
    (euros id amount).typed .sample = some (typedEuros id number finite) := by
  subst number
  have floor : ⌊(0 : ℚ)⌋ = 0 := Int.floor_zero
  simp only [PostedEvent.typed, euros, dif_pos finite, typedEuros,
    PostedTimestamp.typed, floor]

/-- Half a unit of the column, as a string. -/
def crumb : PostedEvent :=
  euros "crumb" (.string (.finite false 5 (-5)))

/-- 12345678901234.5678 as a JSON number. -/
def hoard : PostedEvent :=
  euros "hoard" (.float (.finite false 123456789012345678 (-4)))

/-- The string 0.00005 is accepted and stored as 0.0001; the JSON number
12345678901234.5678 is accepted and stored as 12345678901234.5680. -/
theorem accepted_amounts_are_altered :
    StoredAltered crumb ∧ StoredAltered hoard := by
  constructor
  · have typed : crumb.typed .sample =
        some (typedEuros "crumb" (.finite false 5 (-5)) rfl) :=
      typed_euros rfl rfl
    refine storedAltered_of_run 1 typed (by decide +kernel) ?_
    norm_num [Numeric.value, crumb, euros, PostedAmount.literal,
      Decimal.value, Decimal.signed]
  · have typed : hoard.typed .sample =
        some (typedEuros "hoard" (.finite false 12345678901234568 (-3)) rfl) :=
      typed_euros rfl rfl
    refine storedAltered_of_run 123456789012345680 typed
      (by decide +kernel) ?_
    norm_num [Numeric.value, hoard, euros, PostedAmount.literal,
      Decimal.value, Decimal.signed]

end TxnEvents
