import TxnEvents.System.Commands

/-!
# Reads and writes of the transactions table
-/

namespace TxnEvents

open Effects Arith App

def transientSqlstateClasses : List String :=
  ["08", "40", "53", "57"]

/-- The SQLSTATE on the exception or, when it has none, on its `orig`. -/
def PyException.foundSqlstate (exc : PyException) : Option String :=
  match exc.sqlstate with
  | none => exc.origSqlstate
  | some sqlstate =>
      if sqlstate = "" then exc.origSqlstate else some sqlstate

def databaseUnavailable (exc : PyException) : PyException where
  cls := .databaseUnavailable
  text := exc.text

def classifyDbError (exc : PyException) : Option PyException :=
  if exc.cls = .osError then some (databaseUnavailable exc)
  else
    match exc.foundSqlstate with
    | none => none
    | some sqlstate =>
        if String.ofList (sqlstate.toList.take 2) ∈
            transientSqlstateClasses then
          some (databaseUnavailable exc)
        else none

/-- `except DB_EXCEPTIONS as exc: self._reraise_classified(exc)`. -/
def reraiseClassified {α : Type} (exc : PyException) : App α :=
  if exc.cls.isDbException = true then
    .raise ((classifyDbError exc).getD exc)
  else .raise exc

def insertIgnoreDuplicate (txn : ProcessedTransaction) : App Bool := do
  let inserted ←
    Prog.tryExcept
      (do let inserted ← execute txn
          commit
          return inserted)
      reraiseClassified
  observe (.insertReturned txn.id inserted)
  return inserted

def userSummary (userId : String) : App (Numeric 4 × Nat) := do
  let table ← select.tryExcept reraiseClassified
  return summaryOf table userId

/-- The rows and their number come from two statements. -/
def listUserTransactions (world : World) (userId : String)
    (start stop : Option DateTime) (limit offset : Nat) :
    App (Table × Nat) := do
  let zone := world.localZone .api
  let window : Window :=
    ⟨start.map (driverInstant zone), stop.map (driverInstant zone)⟩
  let rowsTable ← select.tryExcept reraiseClassified
  let countTable ← select.tryExcept reraiseClassified
  return (
    pageRows world.collation rowsTable userId window limit offset,
    pageTotal countTable userId window)

end TxnEvents
