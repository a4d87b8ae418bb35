import TxnEvents.Queue.Consumer
import TxnEvents.Services.Processor

/-!
# The delivery policy and the loops of a worker
-/

namespace TxnEvents

open Effects Python App

/-- The body of the `try` in `handle`. -/
def processAndAck (world : World) (msg : StreamMessage) : App Unit := do
  let ended ← (process world msg.event).attempt
  App.observe (.processEnded msg.msgId ended)
  let outcome ← Prog.ofExcept ended
  ack msg.msgId
  App.inc (.eventsProcessed outcome)

/-- The `except` clauses of `handle`. -/
def handleFailure (world : World) (msg : StreamMessage) (exc : PyException) :
    App Unit :=
  if exc.cls.isPermanent = true then do
    deadLetter msg exc.text
    App.inc (.eventsFailed .permanent)
  else if exc.cls.isTransient = true then
    if world.settings.maxDeliveries ≤ msg.deliveryCount then do
      deadLetter msg "max deliveries exceeded"
      App.inc (.eventsFailed .exhausted)
    else
      App.inc (.eventsFailed .transient)
  else do
    deadLetter msg ("unexpected error: " ++ exc.text)
    App.inc (.eventsFailed .unexpected)

/-- Process one delivery and decide its fate. -/
def handle (world : World) (msg : StreamMessage) : App Unit := do
  App.observe (.processStarted msg.msgId msg.deliveryCount)
  (processAndAck world msg).tryExcept (handleFailure world msg)
  App.observe (.finished msg.msgId)

/-- One round of `consume_loop`. -/
def consumeRound (world : World) : App Unit := do
  let messages ← read world
  Prog.forEach messages (handle world)

/-- One round of `reclaim_loop`. -/
def reclaimRound (world : World) : App Unit := do
  sleep (.finite world.settings.reclaimIntervalS)
  let messages ← claimStale world world.settings.minIdleMs
  Prog.forEach messages (handle world)

/-- `wait_until_ready`. -/
def waitUntilReady (world : World) : App Unit := do
  let _ ←
    retryAsync
      (probe.tryExcept fun exc =>
        if exc.cls.isDbException = true then .raise (databaseUnavailable exc)
        else .raise exc)
      world.settings.dbStartupAttempts world.settings.dbStartupBaseDelayS 5
      (fun cls => cls = .databaseUnavailable) (fun _ _ _ => .ret ())
  return ()

/-- What `run_worker` awaits before it starts the loops. -/
def bootWorker (world : World) : App Unit := do
  waitUntilReady world
  ensureGroup

end TxnEvents
