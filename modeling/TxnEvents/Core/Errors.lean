import Mathlib.Data.List.Basic

/-!
# Exceptions

The exceptions that the program raises or catches, by class.  Each class
stands for itself and its subclasses, as far as no `except` clause of the
program tells them apart.
-/

namespace TxnEvents

inductive ExceptionClass
  | rateServiceUnavailable
  | databaseUnavailable
  | unknownCurrency
  | httpException (statusCode : Nat)
  | osError
  | responseError
  | redisError
  | requestError
  | httpStatusError
  | sqlAlchemyError
  | postgresError
  | keyError
  | valueError
  | unicodeDecodeError
  | overflowError
  | decimalSignal
  | other
deriving DecidableEq, Repr

namespace ExceptionClass

/-- `TransientError`. -/
def isTransient : ExceptionClass → Bool
  | rateServiceUnavailable => true
  | databaseUnavailable => true
  | _ => false

/-- `PermanentError`. -/
def isPermanent : ExceptionClass → Bool
  | unknownCurrency => true
  | _ => false

/-- `RedisError`, which `ResponseError` is one of. -/
def isRedisError : ExceptionClass → Bool
  | responseError => true
  | redisError => true
  | _ => false

/-- `(KeyError, ValueError)`. -/
def isParseError : ExceptionClass → Bool
  | keyError => true
  | valueError => true
  | unicodeDecodeError => true
  | _ => false

/-- `DB_EXCEPTIONS`. -/
def isDbException : ExceptionClass → Bool
  | osError => true
  | sqlAlchemyError => true
  | postgresError => true
  | _ => false

/-- Raised by the program itself and by no library it calls. -/
def isOwn : ExceptionClass → Bool
  | rateServiceUnavailable => true
  | databaseUnavailable => true
  | unknownCurrency => true
  | httpException _ => true
  | _ => false

theorem not_permanent_of_transient {cls : ExceptionClass}
    (transient : cls.isTransient = true) : cls.isPermanent = false := by
  cases cls with
  | unknownCurrency => cases transient
  | _ => rfl

end ExceptionClass

/-- An exception with its `str` and, where a driver sets them, the SQLSTATE on
the exception and on its `orig`. -/
structure PyException where
  cls : ExceptionClass
  text : String
  sqlstate : Option String := none
  origSqlstate : Option String := none
deriving DecidableEq, Repr

/-- An exception out of a library or a service. -/
structure ForeignException where
  exception : PyException
  foreign : exception.cls.isOwn = false
deriving DecidableEq

namespace ForeignException

theorem not_transient (raised : ForeignException) :
    raised.exception.cls.isTransient = false := by
  have foreign := raised.foreign
  cases named : raised.exception.cls <;>
    simp_all [ExceptionClass.isOwn, ExceptionClass.isTransient]

theorem not_permanent (raised : ForeignException) :
    raised.exception.cls.isPermanent = false := by
  have foreign := raised.foreign
  cases named : raised.exception.cls <;>
    simp_all [ExceptionClass.isOwn, ExceptionClass.isPermanent]

end ForeignException

end TxnEvents
