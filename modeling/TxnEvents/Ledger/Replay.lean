import TxnEvents.Ledger.Fidelity
import TxnEvents.Queue.Parsing

/-!
# Published events survive their replays

An operator may add the fields of a dead letter to the stream again, with the
reason and all, and the entry may be dead-lettered and added again any number
of times.  It keeps its version and its payload, and it still parses to the
event that was published.
-/

namespace TxnEvents

open Effects Python

/-- The entry is the first one, or the fields of a dead letter of an entry
that descends from it. -/
inductive Descends (state : State) (first : MsgId) : MsgId → Prop
  | itself : Descends state first first
  | replayed {id : MsgId} {letter : DeadLetter} :
      Descends state first letter.origin →
        letter ∈ state.redis.deadLetters →
          state.redis.stream.entries[id]? =
              some (encodeFields letter.fields) →
            Descends state first id

/-- The fields of a published event, with anything else beside them. -/
structure Preserved (json : JsonCodec) (event : TransactionEvent)
    (fields : Dict) : Prop where
  keys : (fields.map Prod.fst).Nodup
  version : fields.get? "schema_version" = some "1"
  payload : fields.get? "payload" = some (json.dump event)

theorem preserved_publishedFields (json : JsonCodec)
    (event : TransactionEvent) :
    Preserved json event (publishedFields json event) where
  keys := by
    rw [publishedFields, StreamEnvelope.toFields]
    simp
  version := by
    have version : toString (1 : Int) = "1" := rfl
    simp [publishedFields, StreamEnvelope.toFields, Dict.get?, version]
  payload := by
    simp [publishedFields, StreamEnvelope.toFields, Dict.get?]

/-- A reason touches neither version nor payload. -/
theorem Preserved.set_reason {json : JsonCodec} {event : TransactionEvent}
    {fields : Dict} (preserved : Preserved json event fields)
    (reason : String) :
    Preserved json event (fields.set "reason" reason) where
  keys := Dict.keys_nodup_set preserved.keys "reason" reason
  version := by
    rw [Dict.get?_set_of_ne (by decide)]
    exact preserved.version
  payload := by
    rw [Dict.get?_set_of_ne (by decide)]
    exact preserved.payload

/-- Fields that are written to the stream are read as they were. -/
theorem decodeFields_encodeFields {fields : Dict}
    (keys : (fields.map Prod.fst).Nodup) :
    decodeFields (encodeFields fields) = some fields := by
  rw [decodeFields, decodePairs_encodeFields, Option.map_some,
    Dict.ofPairs_eq_self keys]

/-- The extra fields of a preserved event do not matter to the parser. -/
theorem Preserved.parseFields {unicode : UnicodeData} {json : JsonCodec}
    {event : TransactionEvent} {fields : Dict}
    (preserved : Preserved json event fields)
    (typesBack : json.parse (json.dump event) = .ok event.raw) :
    TxnEvents.parseFields unicode json fields =
      .ok (TransactionEvent.validate unicode event.raw) := by
  simp [TxnEvents.parseFields, StreamEnvelope.fromFields,
    StreamEnvelope.lookup, StreamEnvelope.toEvent, preserved.version,
    preserved.payload, Python.int_one, typesBack, bind, Except.bind, pure,
    Except.pure]

section Lineage

variable {world : World} {permit : AppPermit} {config : AppConfig}
  {event : TransactionEvent} {first id : MsgId}

/-- Every entry that descends from a published event carries it. -/
theorem preserved_of_descends (reaches : Reaches world permit config)
    (published : config.shared.entryFields first =
      some (publishedFields world.json event))
    (descends : Descends config.shared first id) :
    ∃ fields, config.shared.entryFields id = some fields ∧
      Preserved world.json event fields := by
  induction descends with
  | itself =>
      exact ⟨_, published, preserved_publishedFields world.json event⟩
  | @replayed id letter _ member added inductionHypothesis =>
      obtain ⟨original, decoded, preserved⟩ := inductionHypothesis
      obtain ⟨written, reason, entry, same, _⟩ :=
        (reaches_safe_of_any reaches).letters letter member
      rw [decoded] at entry
      cases entry
      have kept : Preserved world.json event letter.fields := by
        rw [same]
        exact preserved.set_reason reason
      refine ⟨letter.fields, ?_, kept⟩
      rw [State.entryFields, added, Option.bind_some,
        decodeFields_encodeFields kept.keys]

end Lineage

theorem mem_filterMap_messageOf {world : World} {deliveryCounts : MsgId → Nat}
    {entries : List (MsgId × Dict)} {id : MsgId} {fields : Dict}
    {event : TransactionEvent} (member : (id, fields) ∈ entries)
    (parsed : parseFields world.unicode world.json fields = .ok event) :
    ⟨id, event, deliveryCounts id, fields⟩ ∈
      entries.filterMap (messageOf world deliveryCounts) := by
  apply List.mem_filterMap.mpr
  refine ⟨(id, fields), member, ?_⟩
  rw [messageOf, parsed]

/-- What a read makes of an entry that carries the event. -/
structure ReadBack (world : World) (event : TransactionEvent) (id : MsgId)
    (fields : Dict) : Prop where
  parses : parseFields world.unicode world.json fields = .ok event
  read : ∀ entries rest messages, (id, fields) ∈ entries →
    (read world).Plays
        (⟨.xreadgroup world.settings.batchSize, .ok entries⟩ :: rest)
        (.ok messages) →
      ⟨id, event, 1, fields⟩ ∈ messages
  claimStale : ∀ minIdleMs (reply : ClaimReply) rest messages,
    (id, fields) ∈ reply.claimed →
      (claimStale world minIdleMs).Plays
          (⟨.xautoclaim minIdleMs 0 world.settings.batchSize,
            .ok reply⟩ :: rest) (.ok messages) →
        ∃ deliveryCount, ⟨id, event, deliveryCount, fields⟩ ∈ messages

theorem readBack_of_parses {world : World} {event : TransactionEvent}
    {fields : Dict} (id : MsgId)
    (parses : parseFields world.unicode world.json fields = .ok event) :
    ReadBack world event id fields where
  parses := parses
  read := by
    intro entries rest messages member played
    obtain ⟨handed, _, same, rfl⟩ := plays_read played
    cases same
    exact mem_filterMap_messageOf member parses
  claimStale := by
    intro minIdleMs reply rest messages member played
    obtain ⟨handed, _, deliveryCounts, same, rfl⟩ := plays_claimStale played
    cases same
    exact ⟨deliveryCounts id, mem_filterMap_messageOf member parses⟩

/-- A published event is read back as it was, from its entry and from every
replay of its dead letters. -/
theorem published_event_survives_replays {world : World} {permit : AppPermit}
    {config : AppConfig} (reaches : Reaches world permit config)
    {body : EventBody} {receivedAt : DateTime} {first : MsgId}
    (published : config.shared.entryFields first =
      some (publishedFields world.json (acceptedEvent world body receivedAt)))
    (typesBack :
      world.json.parse (world.json.dump (acceptedEvent world body receivedAt)) =
        .ok (acceptedEvent world body receivedAt).raw) :
    TransactionEvent.validate world.unicode
        (acceptedEvent world body receivedAt).raw =
      acceptedEvent world body receivedAt ∧
    ∀ id, Descends config.shared first id →
      ∃ fields, config.shared.entryFields id = some fields ∧
        fields.get? "schema_version" = some "1" ∧
        fields.get? "payload" =
          some (world.json.dump (acceptedEvent world body receivedAt)) ∧
        ReadBack world (acceptedEvent world body receivedAt) id fields := by
  have unchanged := validate_raw_acceptedEvent world body receivedAt
  refine ⟨unchanged, ?_⟩
  intro id descends
  obtain ⟨fields, decoded, preserved⟩ :=
    preserved_of_descends reaches published descends
  have parses : parseFields world.unicode world.json fields =
      .ok (acceptedEvent world body receivedAt) := by
    rw [preserved.parseFields typesBack, unchanged]
  exact ⟨fields, decoded, preserved.version, preserved.payload,
    readBack_of_parses id parses⟩

/-- A dead letter of the coffee, as the worker writes it. -/
def coffeeLetter : Dict :=
  [("schema_version", "1"), ("payload", "coffee at noon"),
    ("reason", "no rate for currency 'EUR'")]

/-- The coffee is dead-lettered for an unknown currency and added again. -/
theorem published_event_survives_replays_coffee :
    ∃ config, Reaches (coffeeWorld {}) Permit.any config ∧
      Descends config.shared 0 1 ∧
        ∃ fields, config.shared.entryFields 1 = some fields ∧
          fields.get? "schema_version" = some "1" ∧
          fields.get? "payload" =
            some ((coffeeWorld {}).json.dump
              (acceptedEvent (coffeeWorld {}) coffee ⟨0, some 0⟩)) ∧
          ReadBack (coffeeWorld {})
            (acceptedEvent (coffeeWorld {}) coffee ⟨0, some 0⟩) 1 fields := by
  have taken : ((system (coffeeWorld {})).run Guard.any start
      (post 0 coffee {} ++ launch 0 ++
        steps (.consume 0) 7 { http := .answered ⟨404, "", .ok (.finite false 1 0)⟩ } ++
          [.env (.inject (encodeFields coffeeLetter))])).any
        (fun config =>
          decide (config.shared.entryFields 0 =
              some (publishedFields (coffeeWorld {}).json
                (acceptedEvent (coffeeWorld {}) coffee ⟨0, some 0⟩))) &&
            decide (⟨0, coffeeLetter⟩ ∈ config.shared.redis.deadLetters) &&
            decide (config.shared.redis.stream.entries[1]? =
              some (encodeFields coffeeLetter))) =
      true := by decide +kernel
  obtain ⟨config, reaches, shown⟩ := reaches_of_run respects_any taken
  simp only [Bool.and_eq_true, decide_eq_true_eq] at shown
  obtain ⟨⟨published, lettered⟩, added⟩ := shown
  have descends : Descends config.shared 0 1 :=
    Descends.replayed Descends.itself lettered added
  exact ⟨config, reaches, descends,
    (published_event_survives_replays reaches published rfl).2 1 descends⟩

end TxnEvents
