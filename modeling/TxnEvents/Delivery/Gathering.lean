import TxnEvents.Delivery.Invariant
import TxnEvents.Queue.Parsing

/-!
# Rounds under any discipline

Asking Redis for messages is the same whatever is to be shown of a round.  A
discipline that lets the tasks ask, and under which burying an unparseable
entry and handling a parsed one are right, has right rounds.
-/

namespace TxnEvents

open Effects Arith Python Streams App

/-- The message is a parsed entry of the stream. -/
structure Entered (world : World) (msg : StreamMessage) (state : State) :
    Prop where
  entry : state.entryFields msg.msgId = some msg.rawFields
  parsed : parseFields world.unicode world.json msg.rawFields = .ok msg.event

theorem Entered.lasting (world : World) (msg : StreamMessage) :
    Lasting (Entered world msg) :=
  fun _ _ grows entered => ⟨grows.entryFields entered.entry, entered.parsed⟩

/-- The entries are those of the stream. -/
def AllEntries (entries : List (MsgId × Dict)) (state : State) : Prop :=
  ∀ id fields, (id, fields) ∈ entries → state.entryFields id = some fields

theorem AllEntries.lasting (entries : List (MsgId × Dict)) :
    Lasting (AllEntries entries) :=
  fun _ _ grows all id fields member =>
    grows.entryFields (all id fields member)

theorem allEntries_of_decoded {state : State} {ids : List MsgId}
    {entries : List (MsgId × Dict)}
    (decoded : state.decodeEntries ids = some entries) :
    AllEntries entries state :=
  fun id fields member => (mem_decodeEntries decoded id fields member).2

/-- What a source of messages establishes. -/
def EntersAll (world : World) :
    Except PyException (List StreamMessage) → State → Prop
  | .ok messages, state => ∀ msg ∈ messages, Entered world msg state
  | .error _, _ => True

/-- The commands by which a loop gets its messages and lets go of them. -/
def Command.Gathers : Command → Prop
  | xreadgroup _ => True
  | xautoclaim _ _ _ => True
  | xpendingRange _ => True
  | sleep _ => True
  | observe (.finished _) => True
  | _ => False

/-- What a discipline grants to the rounds of a task. -/
structure Grants {world : World} (discipline : Discipline (system world))
    (task : Tid) : Prop where
  rely : ∀ before after, discipline.rely task before after →
    Grows before after
  asks : ∀ command : Command, command.Gathers →
    ∀ before choice reply after, discipline.inv before →
      discipline.permit.command before task command choice →
        exec world before task command choice = some (reply, after) →
          discipline.Guarantee task command before after
  buries : ∀ id fields exc state, state.entryFields id = some fields →
    parseFields world.unicode world.json fields = .error exc →
      discipline.wp task
        (deadLetterFields id fields ("unparseable: " ++ exc.text))
        (fun _ _ => True) state
  handles : ∀ msg state, Entered world msg state →
    discipline.wp task (handle world msg) (fun _ _ => True) state

namespace Grants

variable {world : World} {discipline : Discipline (system world)} {task : Tid}
  {state : State} {holds : State → Prop}

theorem stable (grants : Grants discipline task) (lasting : Lasting holds) :
    discipline.Stable task holds :=
  lasting.stable_of_grows grants.rely

theorem carry (grants : Grants discipline task) {α : Type} {body : App α}
    {post : Except PyException α → State → Prop} (lasting : Lasting holds)
    (current : holds state) (right : discipline.wp task body post state) :
    discipline.wp task body
      (fun outcome after => post outcome after ∧ holds after) state :=
  lasting.carried grants.rely current right

/-- A command that gathers, with what its replies say. -/
theorem ask (grants : Grants discipline task) {command : Command}
    {post : Except PyException command.Reply → State → Prop}
    (gathers : command.Gathers)
    (effect : ∀ before choice reply after,
      exec world before task command choice = some (reply, after) →
        post reply after) :
    discipline.wp task (App.ask command) post state := by
  refine wp_ask (grants.stable (Lasting.const True)) trivial ?_
  intro before choice reply after invariant _ permitted taken
  exact ⟨grants.asks command gathers before choice reply after invariant
    permitted taken, effect before choice reply after taken⟩

theorem parseEntries (grants : Grants discipline task)
    {deliveryCounts : MsgId → Nat} {entries : List (MsgId × Dict)}
    (all : AllEntries entries state) :
    discipline.wp task (TxnEvents.parseEntries world deliveryCounts entries)
      (EntersAll world) state := by
  induction entries generalizing state with
  | nil =>
      intro msg member
      cases member
  | cons entry rest inductionHypothesis =>
      rcases entry with ⟨id, fields⟩
      have here := all id fields List.mem_cons_self
      have others : AllEntries rest state :=
        fun other otherFields member =>
          all other otherFields (List.mem_cons_of_mem _ member)
      have lasting := AllEntries.lasting rest
      rw [TxnEvents.parseEntries]
      split
      case h_1 exc failed =>
        split
        case isTrue =>
          refine Discipline.wp_seq
            (grants.carry lasting others
              (grants.buries id fields exc state here failed)) ?_
            (fun _ _ _ => trivial)
          intro _ after held
          refine Discipline.wp_seq
            (grants.carry lasting held.2
              (grants.ask trivial fun _ _ _ _ _ => trivial)) ?_
            (fun _ _ _ => trivial)
          intro _ later kept
          exact inductionHypothesis kept.2
        case isFalse => exact trivial
      case h_2 event parsed =>
        have entered : Entered world ⟨id, event, deliveryCounts id, fields⟩
            state := ⟨here, parsed⟩
        refine Discipline.wp_seq
          (grants.carry (Entered.lasting world _) entered
            (inductionHypothesis others)) ?_ (fun _ _ _ => trivial)
        intro messages after reached msg member
        rcases List.mem_cons.mp member with same | inRest
        · rw [same]
          exact reached.2
        · exact reached.1 msg inRest

theorem read (grants : Grants discipline task) :
    discipline.wp task (TxnEvents.read world) (EntersAll world) state := by
  have asked : discipline.wp task (xreadgroup world.settings.batchSize)
      (fun outcome after => ∀ entries, outcome = .ok entries →
        AllEntries entries after) state := by
    refine grants.ask trivial ?_
    intro before choice reply after taken entries same
    rcases exec_xreadgroup taken with
      ⟨_, error, failed⟩ | ⟨group, _, _, decoded⟩
    · rw [failed] at same
      cases same
    · exact AllEntries.lasting _ _ _ (exec_grows taken)
        (allEntries_of_decoded (decoded entries same))
  refine Discipline.wp_seq asked ?_ (fun _ _ _ => trivial)
  intro entries after all
  split
  · intro msg member
    cases member
  · exact grants.parseEntries (all entries rfl)

theorem lookUpCounts (grants : Grants discipline task)
    {deliveryCounts : MsgId → Nat} {entries : List (MsgId × Dict)} :
    discipline.wp task (TxnEvents.lookUpCounts deliveryCounts entries)
      (fun _ _ => True) state := by
  have gathers : (TxnEvents.lookUpCounts deliveryCounts entries).Uses
      Command.Gathers := uses_lookUpCounts (fun _ => trivial) _ _
  refine Discipline.wp_of_uses (grants.stable (Lasting.const True)) ?_ gathers
    trivial
  intro command before choice reply after may invariant _ permitted taken
  exact ⟨grants.asks command may before choice reply after invariant permitted
    taken, trivial⟩

theorem claimStale (grants : Grants discipline task) (minIdleMs : Int) :
    discipline.wp task (TxnEvents.claimStale world minIdleMs)
      (EntersAll world) state := by
  have asked : discipline.wp task
      (xautoclaim minIdleMs 0 world.settings.batchSize)
      (fun outcome after => ∀ reply, outcome = .ok reply →
        AllEntries reply.claimed after) state := by
    refine grants.ask trivial ?_
    intro before choice reply after taken answer same
    rcases exec_xautoclaim taken with
      ⟨_, error, failed⟩ | ⟨group, _, _, decoded⟩
    · rw [failed] at same
      cases same
    · exact AllEntries.lasting _ _ _ (exec_grows taken)
        (allEntries_of_decoded (decoded answer same))
  refine Discipline.wp_seq asked ?_ (fun _ _ _ => trivial)
  intro reply after all
  split
  · intro msg member
    cases member
  · refine Discipline.wp_seq
      (grants.carry (AllEntries.lasting _) (all reply rfl)
        grants.lookUpCounts) ?_ (fun _ _ _ => trivial)
    intro counts later held
    exact grants.parseEntries held.2

theorem handleAll (grants : Grants discipline task)
    {messages : List StreamMessage}
    (entered : ∀ msg ∈ messages, Entered world msg state) :
    discipline.wp task (Prog.forEach messages (handle world))
      (fun _ _ => True) state := by
  let all (rest : List StreamMessage) (reached : State) : Prop :=
    ∀ msg ∈ rest, Entered world msg reached
  have started : all messages state := entered
  refine Discipline.wp_forEach ?_ (fun _ _ => trivial) messages started
  intro msg rest reached held
  have lasting : Lasting (all rest) :=
    fun _ _ grows before other member =>
      Entered.lasting world other _ _ grows (before other member)
  refine Discipline.wp_mono ?_ (grants.carry lasting
    (fun other member => held other (List.mem_cons_of_mem _ member))
    (grants.handles msg reached (held msg List.mem_cons_self)))
  intro outcome after kept
  cases outcome with
  | ok value => exact kept.2
  | error error => exact trivial

theorem consumeRound (grants : Grants discipline task) :
    discipline.wp task (TxnEvents.consumeRound world) (fun _ _ => True)
      state := by
  refine Discipline.wp_seq grants.read ?_ (fun _ _ _ => trivial)
  intro messages after entered
  exact grants.handleAll entered

theorem reclaimRound (grants : Grants discipline task) :
    discipline.wp task (TxnEvents.reclaimRound world) (fun _ _ => True)
      state := by
  refine Discipline.wp_seq
    (grants.ask trivial fun _ _ _ _ _ => trivial) ?_ (fun _ _ _ => trivial)
  intro _ after _
  refine Discipline.wp_seq (grants.claimStale _) ?_ (fun _ _ _ => trivial)
  intro messages later entered
  exact grants.handleAll entered

end Grants

end TxnEvents
