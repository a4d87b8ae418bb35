import TxnEvents.Delivery.Turns
import TxnEvents.Delivery.NoLoss
import TxnEvents.Ledger.Listing

/-!
# Paging while rows are inserted

A client asks for one page after the other while workers insert rows between
the requests and inside them.  What a request is answered with was read from
tables no older than the request, and the total is not older than the rows.
That is enough for the client to miss no row it set out with.
-/

namespace TxnEvents

open Effects Arith

/-! ## What an answer was read from -/

/-- A page is that of tables that are not older than `base`, the count not
older than the rows. -/
def SeenSince (world : World) (base : Table) (state : State) :
    Request → Except PyException Response → Prop
  | .transactions query, .ok (.page response) =>
      ∃ rowsTable countTable, base <+: rowsTable ∧ rowsTable <+: countTable ∧
        Snapshot countTable state ∧
          pageOn world query rowsTable countTable = .ok response
  | _, _ => True

theorem SeenSince.grow {world : World} {base : Table} {before after : State}
    {request : Request} {response : Except PyException Response}
    (seen : SeenSince world base before request response)
    (grows : Grows before after) :
    SeenSince world base after request response := by
  unfold SeenSince at seen ⊢
  split at seen
  case h_1 query response =>
    obtain ⟨rowsTable, countTable, old, older, count, answer⟩ := seen
    exact ⟨rowsTable, countTable, old, older, count.grow grows, answer⟩
  case h_2 => exact trivial

/-- Everything that was answered under this number since then. -/
structure AnsweredSince (world : World) (number : Nat) (begun : State)
    (state : State) : Prop where
  table : begun.db.table <+: state.db.table
  answers : ∃ newer, state.history = newer ++ begun.history ∧
    ∀ request response,
      .noted (.request number) (.answered request response) ∈ newer →
        SeenSince world begun.db.table state request response

namespace AnsweredSince

variable {world : World} {number : Nat} {begun before after : State}

theorem refl (world : World) (number : Nat) (begun : State) :
    AnsweredSince world number begun begun where
  table := List.prefix_refl _
  answers := by
    refine ⟨[], rfl, ?_⟩
    intro request response impossible
    cases impossible

/-- A step that adds these happenings. -/
theorem add (added : History)
    (since : AnsweredSince world number begun before)
    (grows : Grows before after)
    (history : after.history = added ++ before.history)
    (seen : ∀ request response,
      .noted (.request number) (.answered request response) ∈ added →
        SeenSince world begun.db.table after request response) :
    AnsweredSince world number begun after where
  table := since.table.trans grows.table
  answers := by
    obtain ⟨newer, equality, old⟩ := since.answers
    refine ⟨added ++ newer, ?_, ?_⟩
    · rw [history, equality, List.append_assoc]
    · intro request response member
      cases List.mem_append.mp member with
      | inl fresh => exact seen request response fresh
      | inr earlier => exact (old request response earlier).grow grows

end AnsweredSince

/-- An answer under this number is one that was read since then. -/
def OwesSeen (world : World) (number : Nat) (begun : State) (state : State)
    (task : Tid) : Command → Prop
  | .observe (.answered request response) =>
      task = .request number →
        SeenSince world begun.db.table state request response
  | _ => True

theorem exec_answeredSince {world : World} {number : Nat}
    {begun state after : State} {task : Tid} {command : Command}
    {choice : Choice} {reply : Except PyException command.Reply}
    (since : AnsweredSince world number begun state)
    (owes : OwesSeen world number begun state task command)
    (taken : exec world state task command choice = some (reply, after)) :
    AnsweredSince world number begun after := by
  have grows := exec_grows taken
  obtain ⟨newer, equality, recorded⟩ := exec_recorded taken
  apply since.add newer grows equality
  intro request response member
  cases recorded _ member
  exact SeenSince.grow (owes rfl) grows

theorem happen_answeredSince {world : World} {number : Nat}
    {begun state after : State} {event : Event} {tasks tasksAfter : AppTasks}
    (since : AnsweredSince world number begun state)
    (happened : happen world event state tasks = some (after, tasksAfter)) :
    AnsweredSince world number begun after := by
  have grows := happen_grows happened
  rcases happen_history happened with same | ⟨name, equality⟩
  · apply since.add [] grows same
    intro request response impossible
    cases impossible
  · apply since.add [_] grows equality
    intro request response member
    cases List.mem_singleton.mp member

/-- The runs after a request was asked under this number. -/
def reading (world : World) (number : Nat) (begun : State) :
    Discipline (system world) where
  permit := Permit.any
  inv := AnsweredSince world number begun
  owes := OwesSeen world number begun
  rely := Others
  rely_refl := Others.refl
  rely_trans := fun _ _ _ _ => Others.trans

section Reading

variable {world : World} {number : Nat} {begun : State} {task : Tid}

theorem reading_guarantee {before after : State} {command : Command}
    {choice : Choice} {reply : Except PyException command.Reply}
    (since : AnsweredSince world number begun before)
    (owes : OwesSeen world number begun before task command)
    (taken : exec world before task command choice = some (reply, after)) :
    (reading world number begun).Guarantee task command before after :=
  ⟨owes, exec_answeredSince since owes taken,
    fun _ different => exec_others different taken⟩

/-- Whatever the other tasks run, they answer nothing under this number. -/
theorem wp_elsewhere {α : Type} (elsewhere : task ≠ .request number)
    (program : App α) (state : State) :
    (reading world number begun).wp task program (fun _ _ => True) state := by
  induction program generalizing state with
  | ret value => exact trivial
  | raise error => exact trivial
  | call command resume inductionHypothesis =>
      intro before moved since choice reply after _ taken
      have owes : OwesSeen world number begun before task command := by
        cases command with
        | observe note =>
            cases note with
            | answered request response =>
                exact fun here => absurd here elsewhere
            | _ => exact trivial
        | _ => exact trivial
      exact ⟨reading_guarantee since owes taken,
        inductionHypothesis reply after⟩

theorem Lasting.stable_reading {holds : State → Prop}
    (lasting : Lasting holds) :
    (reading world number begun).Stable task holds :=
  lasting.stable_of_grows fun _ _ others => others.toGrows

theorem owesSeen_of_routes {state : State} {command : Command}
    (routes : command.Routes) :
    OwesSeen world number begun state task command := by
  cases command with
  | observe note => cases routes
  | _ => exact trivial

/-- A query sees a table no older than what is known. -/
theorem wp_selectSince {known : Table} {state : State}
    (old : Snapshot known state) :
    (reading world number begun).wp task (App.select.tryExcept reraiseClassified)
      (fun outcome after =>
        match outcome with
        | .ok table => known <+: table ∧ Snapshot table after
        | .error _ => True)
      state := by
  have stable : (reading world number begun).Stable task (Snapshot known) :=
    Lasting.stable_reading (Snapshot.lasting known)
  have selected : (reading world number begun).wp task App.select
      (fun outcome after =>
        match outcome with
        | .ok table => known <+: table ∧ Snapshot table after
        | .error _ => True)
      state := by
    refine Discipline.wp_perform stable old ?_
    intro before choice reply after since kept _ taken
    refine ⟨reading_guarantee since trivial taken, ?_⟩
    cases reply with
    | error error => exact trivial
    | ok table =>
        obtain ⟨same, reached⟩ := settle_ok taken
        cases same
        rw [reached]
        exact ⟨kept, List.prefix_refl _⟩
  refine Discipline.wp_tryExcept selected ?_ ?_
  · intro table after seen
    exact seen
  · intro error after _
    unfold reraiseClassified
    split
    · exact trivial
    · exact trivial

/-- The rows and their number are read one after the other. -/
theorem wp_userTransactionsSince (query : TransactionsQuery) {state : State}
    (old : Snapshot begun.db.table state) :
    (reading world number begun).wp task (userTransactions world query)
      (fun outcome after =>
        match outcome with
        | .ok response => SeenSince world begun.db.table after
            (.transactions query) (.ok (.page response))
        | .error _ => True)
      state := by
  let rowsOn (table : Table) : Table :=
    pageRows world.collation table query.userId (queryWindow world query)
      query.limit query.offset
  have listed : (reading world number begun).wp task
      (listUserTransactions world query.userId (boundOrUtc query.start)
        (boundOrUtc query.stop) query.limit query.offset)
      (fun outcome after =>
        match outcome with
        | .ok answer => ∃ rowsTable countTable,
            begun.db.table <+: rowsTable ∧ rowsTable <+: countTable ∧
              Snapshot countTable after ∧
                answer = (rowsOn rowsTable,
                  pageTotal countTable query.userId (queryWindow world query))
        | .error _ => True)
      state := by
    refine Discipline.wp_seq (wp_selectSince old) ?_ ?_
    · intro rowsTable after rows
      refine Discipline.wp_seq (wp_selectSince rows.2) ?_ ?_
      · intro countTable later count
        exact ⟨rowsTable, countTable, rows.1, count.1, count.2, rfl⟩
      · intro error later _
        exact trivial
    · intro error after _
      exact trivial
  refine Discipline.wp_seq listed ?_ ?_
  · intro answer after read
    obtain ⟨rowsTable, countTable, rows, count, snapshot, rfl⟩ := read
    cases items : transactionOuts (rowsOn rowsTable) with
    | error error =>
        simp only [items]
        exact trivial
    | ok outs =>
        simp only [items]
        refine ⟨rowsTable, countTable, rows, count, snapshot, ?_⟩
        simp only [rowsOn] at items
        rw [pageOn, items]
        rfl
  · intro error after _
    exact trivial

/-- What is answered is as it was seen. -/
theorem wp_serveSince (request : Request) {state : State}
    (old : Snapshot begun.db.table state) :
    (reading world number begun).wp task (serve world request)
      (fun _ _ => True) state := by
  have others : (∀ query, request ≠ .transactions query) →
      ∀ (later : State) (outcome : Except PyException Response),
        SeenSince world begun.db.table later request outcome := by
    intro different later outcome
    unfold SeenSince
    split
    case h_1 query response => exact absurd rfl (different query)
    case h_2 => exact trivial
  have routed : (reading world number begun).wp task (route world request)
      (fun outcome after =>
        SeenSince world begun.db.table after request outcome) state := by
    by_cases listing : ∃ query, request = .transactions query
    · obtain ⟨query, rfl⟩ := listing
      refine Discipline.wp_seq (wp_userTransactionsSince query old) ?_ ?_
      · intro response after seen
        exact seen
      · intro error after _
        exact trivial
    · have different : ∀ query, request ≠ .transactions query :=
        fun query same => listing ⟨query, same⟩
      have free : (reading world number begun).wp task (route world request)
          (fun _ _ => True) state := by
        refine Discipline.wp_of_uses
          (Lasting.stable_reading (Lasting.const True)) ?_
          (uses_route world request) trivial
        intro command before choice reply after routes since _ _ taken
        exact ⟨reading_guarantee since (owesSeen_of_routes routes) taken,
          trivial⟩
      refine Discipline.wp_mono ?_ free
      intro outcome after _
      exact others different after outcome
  have handled : (reading world number begun).wp task
      ((route world request).tryExcept databaseUnavailableHandler)
      (fun outcome after =>
        SeenSince world begun.db.table after request outcome) state := by
    refine Discipline.wp_tryExcept routed ?_ ?_
    · intro response after seen
      exact seen
    · intro error after _
      unfold databaseUnavailableHandler
      split
      · cases request <;> exact trivial
      · cases request <;> exact trivial
  refine Discipline.wp_bind.mpr (Discipline.wp_attempt.mpr
    (Discipline.wp_mono ?_ handled))
  intro outcome after seen
  have lasting : Lasting fun state =>
      SeenSince world begun.db.table state request outcome :=
    fun _ _ grows before => before.grow grows
  refine Discipline.wp_perform (Lasting.stable_reading lasting) seen ?_
  intro before choice reply later since held _ taken
  have answered : exec world before task
      (.observe (.answered request outcome)) choice = some (reply, later) :=
    taken
  exact ⟨reading_guarantee since (fun _ => held) answered, trivial⟩

/-- From the moment a request is asked, all answers under its number are read
from tables no older. -/
theorem answeredSince_of_asked {asked config : AppConfig}
    {request : Request}
    (fresh : asked.tasks (.request number) = some (serve world request))
    (later : (system world).Reachable Permit.any asked config) :
    AnsweredSince world number asked.shared config.shared := by
  have starts : ∀ (task : Tid) (program : App Unit) (state : State),
      (task = .request number → ∃ request, program = serve world request) →
        Snapshot asked.shared.db.table state →
          (reading world number asked.shared).wp task program
            (Discipline.returns fun _ => True) state := by
    intro task program state serves old
    have right : (reading world number asked.shared).wp task program
        (fun _ _ => True) state := by
      by_cases here : task = .request number
      · obtain ⟨request, rfl⟩ := serves here
        exact wp_serveSince request old
      · exact wp_elsewhere here program state
    refine Discipline.wp_mono ?_ right
    intro outcome after _
    cases outcome with
    | ok value => exact trivial
    | error error => exact trivial
  have good : (reading world number asked.shared).Good (fun _ _ => True)
      config := by
    refine Discipline.sound (fun _ _ _ _ _ _ => trivial) ?_ ?_ ?_ later
    · refine ⟨AnsweredSince.refl world number asked.shared, ?_⟩
      intro task program running
      apply starts task program _ ?_ (List.prefix_refl _)
      intro here
      rw [here, fresh] at running
      exact ⟨request, (Option.some.inj running).symm⟩
    · intro finished state tasks _ since _ _ task program running
      rcases next_cases running with same | follows
      · exact Or.inl same
      · refine Or.inr (starts task program state ?_ since.table)
        rintro rfl
        cases follows
    · intro event before tasks after tasksAfter _ since _ happened
      have kept := happen_answeredSince since happened
      refine ⟨kept, ?_⟩
      intro task program running
      rcases happen_tasks happened running with ⟨same, spared⟩ | begins
      · exact Or.inl ⟨same, happen_others spared happened⟩
      · refine Or.inr (starts task program after ?_ kept.table)
        rintro rfl
        cases begins with
        | serve number request => exact ⟨request, rfl⟩
  exact good.1

end Reading

/-! ## A client -/

/-- The client asks the query in `before` and has the page in `after`. -/
def Received (world : World) (query : TransactionsQuery) (before : AppConfig)
    (page : TransactionPage) (after : AppConfig) : Prop :=
  ∃ number asked newer,
    (system world).step before (.env (.ask number (.transactions query))) =
        some asked ∧
      (system world).Reachable Permit.any asked after ∧
        after.shared.history = newer ++ asked.shared.history ∧
          .noted (.request number)
              (.answered (.transactions query) (.ok (.page page))) ∈ newer

/-- The query for the page at another offset. -/
def TransactionsQuery.at (query : TransactionsQuery) (offset : Nat) :
    TransactionsQuery :=
  { query with offset := offset }

/-- What a client receives that asks for the page at `offset` and the pages
after it, and stops when a page is empty or ends where its total does.
Anything may happen before each request and until its answer. -/
inductive ClientWalk (world : World) (query : TransactionsQuery) :
    Nat → AppConfig → List TransactionPage → Prop
  | last {offset : Nat} {from_ before after : AppConfig}
      {page : TransactionPage}
      (waited : (system world).Reachable Permit.any from_ before)
      (received : Received world (query.at offset) before page after)
      (stops : Paging.Stops offset page.items page.total) :
      ClientWalk world query offset from_ [page]
  | more {offset : Nat} {from_ before after : AppConfig}
      {page : TransactionPage} {pages : List TransactionPage}
      (waited : (system world).Reachable Permit.any from_ before)
      (received : Received world (query.at offset) before page after)
      (goesOn : ¬ Paging.Stops offset page.items page.total)
      (rest : ClientWalk world query (offset + query.limit) after pages) :
      ClientWalk world query offset from_ (page :: pages)

/-- The listed items are in strict order. -/
def NewerOut (collation : Collation) (left right : TransactionOut) : Prop :=
  right.timestamp < left.timestamp ∨
    right.timestamp = left.timestamp ∧
      collation.le right.id left.id = true ∧ right.id ≠ left.id

section Pages

variable {world : World} {query : TransactionsQuery}

theorem transactionOut_ok {row : StoredTransaction} {item : TransactionOut}
    (shown : transactionOut row = .ok item) :
    item.id = row.id ∧ item.timestamp = row.timestamp := by
  unfold transactionOut at shown
  split at shown
  · cases shown
    exact ⟨rfl, rfl⟩
  · cases shown

theorem exists_shown {rows : Table} {items : List TransactionOut}
    (shown : List.Forall₂ (fun row item => transactionOut row = .ok item) rows
      items) {row : StoredTransaction} (member : row ∈ rows) :
    ∃ item ∈ items, transactionOut row = .ok item := by
  induction shown with
  | nil => cases member
  | @cons first item rest items here others inductionHypothesis =>
      cases List.mem_cons.mp member with
      | inl same =>
          rw [same]
          exact ⟨item, List.mem_cons_self, here⟩
      | inr later =>
          obtain ⟨found, among, is⟩ := inductionHypothesis later
          exact ⟨found, List.mem_cons_of_mem _ among, is⟩

theorem exists_row {rows : Table} {items : List TransactionOut}
    (shown : List.Forall₂ (fun row item => transactionOut row = .ok item) rows
      items) {item : TransactionOut} (member : item ∈ items) :
    ∃ row ∈ rows, transactionOut row = .ok item := by
  induction shown with
  | nil => cases member
  | @cons row first rest items here others inductionHypothesis =>
      cases List.mem_cons.mp member with
      | inl same =>
          rw [same]
          exact ⟨row, List.mem_cons_self, here⟩
      | inr later =>
          obtain ⟨found, among, is⟩ := inductionHypothesis later
          exact ⟨found, List.mem_cons_of_mem _ among, is⟩

/-- Items are ordered as their rows are. -/
theorem ordered_of_shown {collation : Collation} {rows : Table}
    {items : List TransactionOut}
    (shown : List.Forall₂ (fun row item => transactionOut row = .ok item) rows
      items) (ordered : rows.Pairwise (Newer collation)) :
    items.Pairwise (NewerOut collation) := by
  induction shown with
  | nil => exact List.Pairwise.nil
  | @cons row item rest items here others inductionHypothesis =>
      rw [List.pairwise_cons] at ordered ⊢
      refine ⟨?_, inductionHypothesis ordered.2⟩
      intro other member
      obtain ⟨otherRow, otherMember, otherHere⟩ := exists_row others member
      obtain ⟨ids, timestamps⟩ := transactionOut_ok here
      obtain ⟨otherIds, otherTimestamps⟩ := transactionOut_ok otherHere
      have newer := ordered.1 otherRow otherMember
      rw [NewerOut, ids, timestamps, otherIds, otherTimestamps]
      exact newer

theorem ids_of_shown {rows : Table} {items : List TransactionOut}
    (shown : List.Forall₂ (fun row item => transactionOut row = .ok item) rows
      items) :
    items.map TransactionOut.id = rows.map StoredTransaction.id := by
  induction shown with
  | nil => rfl
  | @cons row item rest items here others inductionHypothesis =>
      rw [List.map_cons, List.map_cons, inductionHypothesis,
        (transactionOut_ok here).1]

theorem transactionOuts_ok {rows : Table} {items : List TransactionOut}
    (shown : transactionOuts rows = .ok items) :
    List.Forall₂ (fun row item => transactionOut row = .ok item) rows
      items := by
  induction rows generalizing items with
  | nil =>
      cases shown
      exact List.Forall₂.nil
  | cons row rest inductionHypothesis =>
      cases first : transactionOut row with
      | error error =>
          rw [transactionOuts, first] at shown
          cases shown
      | ok item =>
          cases others : transactionOuts rest with
          | error error =>
              rw [transactionOuts, first, others] at shown
              cases shown
          | ok restItems =>
              rw [transactionOuts, first, others] at shown
              cases shown
              exact List.Forall₂.cons first (inductionHypothesis others)

/-- A received page, in terms of the listing it was cut from. -/
structure CutFrom (world : World) (query : TransactionsQuery)
    (rowsTable countTable : Table) (page : TransactionPage) : Prop where
  items : List.Forall₂ (fun row item => transactionOut row = .ok item)
    (Paging.page (newestFirst world.collation rowsTable query.userId
      (queryWindow world query)) query.limit query.offset) page.items
  total : page.total =
    pageTotal countTable query.userId (queryWindow world query)
  offset : page.offset = query.offset

theorem cutFrom_of_pageOn {rowsTable countTable : Table}
    {page : TransactionPage}
    (answer : pageOn world query rowsTable countTable = .ok page) :
    CutFrom world query rowsTable countTable page := by
  cases shown : transactionOuts (pageRows world.collation rowsTable
      query.userId (queryWindow world query) query.limit query.offset) with
  | error error =>
      rw [pageOn, shown] at answer
      cases answer
  | ok items =>
      rw [pageOn, shown] at answer
      cases answer
      exact ⟨transactionOuts_ok shown, rfl, rfl⟩

/-- The tables that a received page was read from. -/
theorem cutFrom_of_received {before after : AppConfig}
    {page : TransactionPage}
    (received : Received world query before page after) :
    ∃ rowsTable countTable, before.shared.db.table <+: rowsTable ∧
      rowsTable <+: countTable ∧ countTable <+: after.shared.db.table ∧
        CutFrom world query rowsTable countTable page := by
  obtain ⟨number, asked, newer, stepped, later, history, member⟩ := received
  obtain ⟨⟨shared, tasks⟩, happened, equality⟩ :=
    Option.map_eq_some_iff.mp stepped
  cases equality
  have same : shared = before.shared ∧ tasks (.request number) =
      some (serve world (.transactions query)) := by
    simp only [system, happen] at happened
    split at happened
    · cases happened
      exact ⟨rfl, Function.update_self _ _ _⟩
    · cases happened
  obtain ⟨rfl, fresh⟩ := same
  have since := answeredSince_of_asked fresh later
  obtain ⟨found, equality, seen⟩ := since.answers
  have newest : found = newer := by
    rw [history] at equality
    exact (List.append_cancel_right equality).symm
  rw [newest] at seen
  obtain ⟨rowsTable, countTable, old, rows, count, answer⟩ :=
    seen _ _ member
  exact ⟨rowsTable, countTable, old, rows, count, cutFrom_of_pageOn answer⟩

namespace CutFrom

variable {rowsTable countTable : Table} {page : TransactionPage}

theorem length_items (cut : CutFrom world query rowsTable countTable page) :
    page.items.length =
      (Paging.page (newestFirst world.collation rowsTable query.userId
        (queryWindow world query)) query.limit query.offset).length :=
  cut.items.length_eq.symm

/-- The client stops at the items exactly where it would stop at the rows. -/
theorem stops_iff (cut : CutFrom world query rowsTable countTable page)
    (offset : Nat) :
    Paging.Stops offset page.items page.total ↔
      Paging.Stops offset
        (Paging.page (newestFirst world.collation rowsTable query.userId
          (queryWindow world query)) query.limit query.offset)
        (pageTotal countTable query.userId (queryWindow world query)) := by
  rw [Paging.Stops, Paging.Stops, ← cut.total, ← cut.length_items,
    ← List.length_eq_zero_iff, cut.length_items, List.length_eq_zero_iff]

/-- The rows that a page was cut from are in strict order, with ids of their
own. -/
theorem rows_ordered (unique : (rowsTable.map StoredTransaction.id).Nodup) :
    (Paging.page (newestFirst world.collation rowsTable query.userId
        (queryWindow world query)) query.limit query.offset).Pairwise
      (Newer world.collation) :=
  (newestFirst_ordered unique).sublist (Paging.page_sublist _ _ _)

theorem ids_nodup (cut : CutFrom world query rowsTable countTable page)
    (unique : (rowsTable.map StoredTransaction.id).Nodup) :
    (page.items.map TransactionOut.id).Nodup := by
  rw [ids_of_shown cut.items]
  exact (newestFirst_ids_nodup unique).sublist
    ((Paging.page_sublist _ _ _).map _)

/-- A page with an item on it ends within its total. -/
theorem ends_within (cut : CutFrom world query rowsTable countTable page)
    (grown : rowsTable <+: countTable) (notEmpty : page.items ≠ []) :
    page.offset + page.items.length ≤ page.total := by
  have rowsThere : Paging.page (newestFirst world.collation rowsTable
      query.userId (queryWindow world query)) query.limit query.offset ≠ [] := by
    intro none
    apply notEmpty
    have lengths := cut.length_items
    rw [none, List.length_nil] at lengths
    exact List.eq_nil_of_length_eq_zero lengths
  have within := Paging.page_ends_within rowsThere
  have counted : pageTotal rowsTable query.userId (queryWindow world query) ≤
      pageTotal countTable query.userId (queryWindow world query) :=
    pageTotal_le_of_sublist grown.sublist
  rw [length_newestFirst] at within
  rw [cut.offset, cut.total, cut.length_items]
  omega

end CutFrom

end Pages

/-! ## No row is skipped -/

section Walk

variable {world : World} {query : TransactionsQuery}

/-- What a page keeps to itself. -/
structure PageSound (collation : Collation) (page : TransactionPage) :
    Prop where
  once : (page.items.map TransactionOut.id).Nodup
  ordered : page.items.Pairwise (NewerOut collation)
  within : page.items ≠ [] → page.offset + page.items.length ≤ page.total

theorem reaches_of_received {before after : AppConfig}
    {page : TransactionPage} (reaches : Reaches world Permit.any before)
    (received : Received world query before page after) :
    Reaches world Permit.any after := by
  obtain ⟨number, asked, _, stepped, later, _, _⟩ := received
  have allowed : (Permit.any : AppPermit).Allows before
      (.env (.ask number (.transactions query))) := trivial
  have askedReaches : Reaches world Permit.any asked :=
    reaches.step allowed stepped
  exact askedReaches.trans later

theorem pageSound_of_received {before after : AppConfig}
    {page : TransactionPage} (reaches : Reaches world Permit.any before)
    (received : Received world query before page after) :
    PageSound world.collation page := by
  obtain ⟨rowsTable, countTable, _, grown, count, cut⟩ :=
    cutFrom_of_received received
  have reachesAfter := reaches_of_received reaches received
  have unique := (reaches_safe_of_any reachesAfter).db.unique
  have rowsUnique : (rowsTable.map StoredTransaction.id).Nodup :=
    unique.sublist ((grown.trans count).sublist.map _)
  exact {
    once := cut.ids_nodup rowsUnique
    ordered := ordered_of_shown cut.items (CutFrom.rows_ordered rowsUnique)
    within := cut.ends_within grown }

/-- What a page was cut from: a listing that has grown, with no row twice, and
counted when it was at least as long. -/
theorem listing_grown {from_ before after : AppConfig}
    {earlier rowsTable countTable : Table} (reaches : Reaches world Permit.any after)
    (waited : (system world).Reachable Permit.any from_ before)
    (known : earlier <+: from_.shared.db.table)
    (old : before.shared.db.table <+: rowsTable)
    (grown : rowsTable <+: countTable)
    (count : countTable <+: after.shared.db.table) :
    (newestFirst world.collation earlier query.userId
        (queryWindow world query)).Sublist
      (newestFirst world.collation rowsTable query.userId
        (queryWindow world query)) ∧
      (newestFirst world.collation rowsTable query.userId
        (queryWindow world query)).Nodup ∧
      (newestFirst world.collation rowsTable query.userId
        (queryWindow world query)).length ≤
          pageTotal countTable query.userId (queryWindow world query) := by
  have unique := (reaches_safe_of_any reaches).db.unique
  have rowsUnique : (rowsTable.map StoredTransaction.id).Nodup :=
    unique.sublist ((grown.trans count).sublist.map _)
  have since : earlier <+: rowsTable :=
    (known.trans (reachable_grows waited).table).trans old
  refine ⟨newestFirst_sublist rowsUnique since.sublist,
    (newestFirst_ids_nodup rowsUnique).of_map, ?_⟩
  rw [length_newestFirst]
  exact pageTotal_le_of_sublist grown.sublist

/-- The walk of the client is a walk over the growing listing. -/
theorem walk_of_clientWalk {offset : Nat} {from_ : AppConfig}
    {pages : List TransactionPage}
    (walk : ClientWalk world query offset from_ pages)
    (reaches : Reaches world Permit.any from_) {earlier : Table}
    (known : earlier <+: from_.shared.db.table) :
    ∃ received : List Table,
      Paging.Walk query.limit offset
          (newestFirst world.collation earlier query.userId
            (queryWindow world query)) received ∧
        ∀ rows ∈ received, ∃ page ∈ pages,
          List.Forall₂ (fun row item => transactionOut row = .ok item) rows
            page.items := by
  induction walk generalizing earlier with
  | @last offset from_ before after page waited received stops =>
      obtain ⟨rowsTable, countTable, old, grown, count, cut⟩ :=
        cutFrom_of_received received
      have reachesAfter :=
        reaches_of_received (reaches.trans waited) received
      obtain ⟨longer, distinct, counted⟩ :=
        listing_grown reachesAfter waited known old grown count
      refine ⟨[_], Paging.Walk.last longer distinct counted
        ((cut.stops_iff offset).mp stops), ?_⟩
      intro rows member
      rw [List.mem_singleton.mp member]
      exact ⟨page, List.mem_singleton_self page, cut.items⟩
  | @more offset from_ before after page pages waited received goesOn rest
      inductionHypothesis =>
      obtain ⟨rowsTable, countTable, old, grown, count, cut⟩ :=
        cutFrom_of_received received
      have reachesAfter :=
        reaches_of_received (reaches.trans waited) received
      obtain ⟨longer, distinct, counted⟩ :=
        listing_grown reachesAfter waited known old grown count
      obtain ⟨others, walked, shown⟩ :=
        inductionHypothesis reachesAfter (grown.trans count)
      refine ⟨_ :: others, Paging.Walk.more longer distinct counted
        (fun stops => goesOn ((cut.stops_iff offset).mpr stops)) walked, ?_⟩
      intro rows member
      cases List.mem_cons.mp member with
      | inl first =>
          rw [first]
          exact ⟨page, List.mem_cons_self, cut.items⟩
      | inr later =>
          obtain ⟨found, among, items⟩ := shown rows later
          exact ⟨found, List.mem_cons_of_mem _ among, items⟩

theorem pagesSound_of_clientWalk {offset : Nat} {from_ : AppConfig}
    {pages : List TransactionPage}
    (walk : ClientWalk world query offset from_ pages)
    (reaches : Reaches world Permit.any from_) :
    ∀ page ∈ pages, PageSound world.collation page := by
  induction walk with
  | @last offset from_ before after page waited received stops =>
      intro found member
      rw [List.mem_singleton.mp member]
      exact pageSound_of_received (reaches.trans waited) received
  | @more offset from_ before after page pages waited received goesOn rest
      inductionHypothesis =>
      have reachesAfter :=
        reaches_of_received (reaches.trans waited) received
      intro found member
      cases List.mem_cons.mp member with
      | inl first =>
          rw [first]
          exact pageSound_of_received (reaches.trans waited) received
      | inr later => exact inductionHypothesis reachesAfter found later

/-- Whatever is inserted meanwhile, a client that has walked through the pages
has received every row that matched before its first request, on pages in
strict order that end within their totals. -/
theorem offset_paging_skips_nothing {config : AppConfig}
    (reaches : Reaches world Permit.any config)
    {pages : List TransactionPage}
    (walk : ClientWalk world query 0 config pages) :
    (∀ row ∈ matching config.shared.db.table query.userId
        (queryWindow world query),
      ∃ page ∈ pages, ∃ item ∈ page.items, transactionOut row = .ok item) ∧
      ∀ page ∈ pages, PageSound world.collation page := by
  refine ⟨?_, pagesSound_of_clientWalk walk reaches⟩
  intro row matches_
  obtain ⟨received, walked, shown⟩ :=
    walk_of_clientWalk walk reaches (List.prefix_refl _)
  have listed : row ∈ newestFirst world.collation config.shared.db.table
      query.userId (queryWindow world query) :=
    mem_newestFirst.mpr (mem_matching.mp matches_)
  obtain ⟨rows, among, onPage⟩ :=
    walked.finds query.limitBounds.1 listed (Nat.zero_le _)
  obtain ⟨page, member, items⟩ := shown rows among
  obtain ⟨item, itemMember, same⟩ := exists_shown items onPage
  exact ⟨page, member, item, itemMember, same⟩

end Walk

/-! ## A walk that can be run -/

section Run

variable {world : World} {query : TransactionsQuery}

/-- Ask the query and run the request to its answer. -/
def receive (world : World) (query : TransactionsQuery) (number : Nat)
    (before : AppConfig) : Option (TransactionPage × AppConfig) := do
  let asked ←
    (system world).step before (.env (.ask number (.transactions query)))
  let after ← (system world).run Guard.any asked (steps (.request number) 3 {})
  match after.shared.history with
  | .noted task (.answered request (.ok (.page page))) :: earlier =>
      if task = .request number ∧ request = .transactions query ∧
          earlier = asked.shared.history then
        some (page, after)
      else none
  | _ => none

theorem received_of_receive {number : Nat} {before after : AppConfig}
    {page : TransactionPage}
    (got : receive world query number before = some (page, after)) :
    Received world query before page after := by
  obtain ⟨asked, stepped, got⟩ := Option.bind_eq_some_iff.mp got
  obtain ⟨ended, ran, got⟩ := Option.bind_eq_some_iff.mp got
  have later : (system world).Reachable Permit.any asked ended :=
    System.Reachable.of_run respects_any ran
  split at got
  case h_1 task request shown earlier history =>
    split at got
    case isTrue same =>
      obtain ⟨rfl, rfl, rfl⟩ := same
      cases got
      exact ⟨number, asked, [_], stepped, later, history,
        List.mem_singleton_self _⟩
    case isFalse => cases got
  case h_2 => cases got

/-- Walk through the pages from `offset` on, with these steps before each
request. -/
def walkThrough (world : World) (query : TransactionsQuery) :
    List (List AppAction) → Nat → Nat → AppConfig →
      Option (List TransactionPage)
  | [], _, _, _ => none
  | meanwhile :: rest, number, offset, from_ =>
      ((system world).run Guard.any from_ meanwhile).bind fun before =>
        (receive world (query.at offset) number before).bind fun got =>
          if Paging.Stops offset got.1.items got.1.total then some [got.1]
          else
            (walkThrough world query rest (number + 1)
              (offset + query.limit) got.2).map (got.1 :: ·)

theorem clientWalk_of_walkThrough {segments : List (List AppAction)}
    {number offset : Nat} {from_ : AppConfig} {pages : List TransactionPage}
    (walked : walkThrough world query segments number offset from_ =
      some pages) : ClientWalk world query offset from_ pages := by
  induction segments generalizing number offset from_ pages with
  | nil => cases walked
  | cons meanwhile rest inductionHypothesis =>
      obtain ⟨before, ran, walked⟩ := Option.bind_eq_some_iff.mp walked
      obtain ⟨⟨page, after⟩, got, walked⟩ := Option.bind_eq_some_iff.mp walked
      have waited : (system world).Reachable Permit.any from_ before :=
        System.Reachable.of_run respects_any ran
      have received := received_of_receive got
      split at walked
      case isTrue stops =>
        cases walked
        exact .last waited received stops
      case isFalse goesOn =>
        obtain ⟨others, later, rfl⟩ := Option.map_eq_some_iff.mp walked
        exact .more waited received goesOn (inductionHypothesis later)

end Run

/-- Coffee at some other microsecond. -/
def treat (id : String) (wall : Int) : EventBody :=
  { coffee with id := id, timestamp := ⟨wall, none⟩ }

def treatEvent (id : String) (wall : Int) : TransactionEvent :=
  { coffeeEvent with id := id, timestamp := ⟨wall, 0⟩ }

def treatWorld : World :=
  .small Settings.defaults
    [(treatEvent "coffee" 0, "coffee first"),
      (treatEvent "tea" 1, "tea next"),
      (treatEvent "cake" 2, "cake last")]
    (by decide) (by decide)

/-- Coffee and tea are stored. -/
def coffeeAndTea : List AppAction :=
  post 0 (treat "coffee" 0) {} ++ post 1 (treat "tea" 1) {} ++ launch 0 ++
    steps (.consume 0) 25 (answering (.finite false 11 (-1)))

/-- Cake, newer than both, is stored in the next round. -/
def cakeMeanwhile : List AppAction :=
  post 2 (treat "cake" 2) {} ++ [.finish (.consume 0)] ++
    steps (.consume 0) 12 (answering (.finite false 11 (-1)))

/-- Ada's transactions, one on a page. -/
def adasQuery : TransactionsQuery where
  userId := "ada"
  start := none
  stop := none
  limit := 1
  limitBounds := by decide
  offset := 0

/-- A client that walks through three pages; the cake is stored when it has the
first one. -/
theorem offset_paging_skips_nothing_coffee :
    ∃ config pages, Reaches treatWorld Permit.any config ∧
      config.shared.db.table.map StoredTransaction.id = ["coffee", "tea"] ∧
        (pages : List TransactionPage).map TransactionPage.total = [2, 3, 3] ∧
          ∀ row ∈ matching config.shared.db.table "ada"
              (queryWindow treatWorld adasQuery),
            ∃ page ∈ pages, ∃ item ∈ page.items,
              transactionOut row = .ok item := by
  have taken : ((system treatWorld).run Guard.any start coffeeAndTea).any
      (fun first =>
        decide (first.shared.db.table.map StoredTransaction.id =
            ["coffee", "tea"]) &&
          (walkThrough treatWorld adasQuery [[], cakeMeanwhile, []] 3 0
              first).any fun pages =>
            decide (pages.map TransactionPage.total = [2, 3, 3])) = true := by
    decide +kernel
  obtain ⟨first, reaches, shown⟩ := reaches_of_run respects_any taken
  rw [Bool.and_eq_true, decide_eq_true_eq] at shown
  obtain ⟨pages, walked, totals⟩ := (Option.any_eq_true _ _).mp shown.2
  exact ⟨first, pages, reaches, shown.1, of_decide_eq_true totals,
    (offset_paging_skips_nothing reaches
      (clientWalk_of_walkThrough walked)).1⟩

end TxnEvents
