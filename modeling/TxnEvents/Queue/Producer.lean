import TxnEvents.System.Commands

/-!
# Publishing accepted events
-/

namespace TxnEvents

open App

def publish (world : World) (event : TransactionEvent) : App MsgId :=
  xadd (publishedFields world.json event) world.settings.streamMaxlen

end TxnEvents
