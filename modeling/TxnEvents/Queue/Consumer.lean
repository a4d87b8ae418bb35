import TxnEvents.System.Commands

/-!
# Consumer-group reads, acknowledgements, reclaims and dead letters
-/

namespace TxnEvents

open Effects Python App

/-- One delivery: the parsed event, how often its message has been delivered,
and the fields as they arrived. -/
structure StreamMessage where
  msgId : MsgId
  event : TransactionEvent
  deliveryCount : Nat
  rawFields : Dict

def ensureGroup : App Unit :=
  xgroupCreate.tryExcept fun exc =>
    if exc.cls = .responseError ∧ contains exc.text "BUSYGROUP" = true then
      .ret ()
    else .raise exc

def ack (msgId : MsgId) : App Unit :=
  xack msgId

def deadLetterFields (msgId : MsgId) (fields : Dict) (reason : String) :
    App Unit := do
  observe (.deadLettering msgId reason)
  xaddDlq msgId (fields.set "reason" reason)
  xack msgId

def deadLetter (msg : StreamMessage) (reason : String) : App Unit :=
  deadLetterFields msg.msgId msg.rawFields reason

def deliveryCount (msgId : MsgId) : App Nat := do
  let entries ← xpendingRange msgId
  return entries.headD 1

/-- The messages among the entries; the others are dead-lettered on the
way. -/
def parseEntries (world : World) (deliveryCounts : MsgId → Nat) :
    List (MsgId × Dict) → App (List StreamMessage)
  | [] => .ret []
  | (msgId, fields) :: rest =>
      match parseFields world.unicode world.json fields with
      | .error exc =>
          if exc.cls.isParseError = true then do
            deadLetterFields msgId fields ("unparseable: " ++ exc.text)
            observe (.finished msgId)
            parseEntries world deliveryCounts rest
          else .raise exc
      | .ok event => do
          let messages ← parseEntries world deliveryCounts rest
          return {
            msgId, event
            deliveryCount := deliveryCounts msgId
            rawFields := fields } :: messages

def read (world : World) : App (List StreamMessage) := do
  let entries ← xreadgroup world.settings.batchSize
  if entries.isEmpty then
    return []
  else
    parseEntries world (fun _ => 1) entries

/-- Look up the count of each claimed entry, one after the other. -/
def lookUpCounts (deliveryCounts : MsgId → Nat) :
    List (MsgId × Dict) → App (MsgId → Nat)
  | [] => .ret deliveryCounts
  | (msgId, _) :: rest => do
      let count ← deliveryCount msgId
      lookUpCounts (Function.update deliveryCounts msgId count) rest

def claimStale (world : World) (minIdleMs : Int) :
    App (List StreamMessage) := do
  let reply ← xautoclaim minIdleMs 0 world.settings.batchSize
  if reply.claimed.isEmpty then
    return []
  else do
    let deliveryCounts ← lookUpCounts (fun _ => 1) reply.claimed
    parseEntries world deliveryCounts reply.claimed

end TxnEvents
