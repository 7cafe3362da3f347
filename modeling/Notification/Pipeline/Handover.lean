import Notification.Aggregator.Consumption
import Notification.Router.Identity

/-!
# From the router to the aggregator

The two services share no types. What the router publishes for a request is parsed by the
consumer into an event again, and the event's row is what the store gets to see. The
validator only looks at presence, channel and e-mail shape, the store also at lengths.
-/

namespace Notification

open Interaction Program

/-- The event that the consumer makes of a request's message. -/
def TextRequest.routed (r : TextRequest) (reply : MessageResponse) : ParsedKafkaMessage where
  messageId := some reply.messageId
  dedupKey := some reply.dedupKey
  userId := some r.userId
  tenantId := some r.tenantId
  channel := some r.channel
  recipient := some r.recipient
  body := some r.body
  traceId := some reply.traceId
  idempotencyKey := some r.idempotencyKey
  attempt := 0

/-- The row that a request is stored as. -/
def TextRequest.stored (r : TextRequest) (reply : MessageResponse) : MessageRow where
  messageId := reply.messageId
  idempotencyKey := r.idempotencyKey
  tenantId := r.tenantId
  dedupKey := reply.dedupKey
  userId := r.userId
  channel := r.channel
  recipient := r.recipient
  body := r.body
  status := .inProgress
  finalDelivered := false
  attemptCount := 0
  maxAttempts := 4

namespace Pipeline

variable {sha256 : String → String} {uuid : ℕ → String} {choose : World → Choice}
  {r : TextRequest} {reply : MessageResponse} {w w' : World}

/-- The consumer reads back every field that the router writes. The router's `attempts` is
not the consumer's `attempt`, which is missing and so 0. -/
theorem parseEvent_message (r : TextRequest) (reply : MessageResponse) :
    parseEvent (MessageController.newMessage r.toRequest reply.traceId reply.messageId
      reply.dedupKey).toJson = .ok (r.routed reply) := by
  rfl

/-- What validation tells of a request. -/
structure Validated (r : TextRequest) : Prop where
  key : r.idempotencyKey ≠ ""
  channel : r.channel ∈ channels

theorem validated (valid : MessageController.validateRequest r.toRequest = .ok ()) :
    Validated r := by
  unfold MessageController.validateRequest at valid
  constructor
  · intro hkey
    have hmissing : MessageController.missingField r.toRequest = true := by
      simp [MessageController.missingField, TextRequest.toRequest, Json.truthy, hkey]
    rw [hmissing] at valid
    cases valid
  · by_contra hchannel
    have hnot : isChannel r.toRequest.channel = false := by
      simpa [isChannel, TextRequest.toRequest, channels] using hchannel
    rw [hnot] at valid
    cases hmissing : MessageController.missingField r.toRequest <;> rw [hmissing] at valid <;>
      cases valid

/-- An accepted request has been published, and its event is that of the reply. -/
theorem published_of_accepted (valid : MessageController.validateRequest r.toRequest = .ok ())
    (hrun : (MessageController.handleCreateMessage sha256 r.toRequest).run
      (World.handler uuid choose) w = (.ok reply, w')) (accepted : reply.status = .accepted) :
    ∃ record entry, w'.log = w.log ++ [record, entry] ∧ record.topic = "messages." ++ r.channel ∧
      parseEvent record.value = .ok (r.routed reply) ∧ reply.dedupKey = r.dedupKey sha256 ∧
      reply.messageId = uuid (w.uuids + 1) := by
  cases hlive : w.redis.live r.cacheKey with
  | some e =>
      obtain ⟨w'', entry, hrun', -⟩ := MessageController.run_of_hit sha256 uuid choose valid hlive
      rw [hrun] at hrun'
      cases hrun'
      cases accepted
  | none =>
      obtain ⟨w'', partition, entry, hrun', -, -, -, hlog⟩ :=
        MessageController.run_of_miss sha256 uuid choose valid hlive
      rw [hrun] at hrun'
      cases hrun'
      exact ⟨_, entry, hlog, rfl, parseEvent_message r
        (MessageController.response sha256 uuid r w.uuids .accepted), rfl, rfl⟩

/-! ## Storing an event -/

/-- The texts fit the columns of `messages`. -/
def FitsColumns (r : TextRequest) : Prop :=
  r.tenantId.length ≤ 128 ∧ r.userId.length ≤ 128 ∧ r.idempotencyKey.length ≤ 255 ∧
    r.recipient.length ≤ 255 ∧ r.body.utf8ByteSize < 2 ^ 32

theorem effectiveKey_routed (h : Validated r) :
    (r.routed reply).effectiveKey = some r.idempotencyKey := by
  simp [ParsedKafkaMessage.effectiveKey, TextRequest.routed, h.key]

/-- The columns an `INSERT` of an event writes, with their values. -/
theorem insertMessage_routed (h : Validated r) (reply : MessageResponse) : ∃ columns values,
    BatchIdempotencyService.insertMessage (r.routed reply).toCheck =
      .insert .messages columns values ∧
    insertedRow columns values = r.stored reply := by
  refine ⟨_, _, rfl, ?_⟩
  simp only [ParsedKafkaMessage.toCheck, effectiveKey_routed h]
  rfl

/-- The schema refuses the row of an event exactly if one of its texts is too long. -/
theorem wellFormed_routed (h : Validated r) (reply : MessageResponse) :
    (r.routed reply).WellFormed ↔ reply.messageId.length ≤ 36 ∧ reply.dedupKey.length ≤ 128 ∧
      FitsColumns r := by
  rw [ParsedKafkaMessage.WellFormed, BatchIdempotencyService.insertMessage, Statement.check_eq_none]
  simp only [ParsedKafkaMessage.toCheck, effectiveKey_routed h]
  -- no parameter is missing, and the columns are the right ones
  refine (and_iff_right rfl).trans ((and_iff_right rfl).trans ((and_iff_right rfl).trans ?_))
  simp only [Statement.writes, Statement.table, Table.columns, TextRequest.routed, Expr.text,
    FitsColumns]
  simp [Expr.value?, Column.refuses, h.channel]
  omega

/-- No row, committed or not, has the message id, dedup key or pair of this one. -/
def Absent (db : Database) (row : MessageRow) : Prop := ∀ x ∈ db.rows, row.clashes x = false

/-- The statement is executed at once and without an error. -/
def Stores (db : Database) (conn : ℕ) (statement : Statement) : Prop :=
  ∃ out, db.execute conn statement = some out ∧ out.1.isOk = true

/-- A row that is absent is stored unless the schema refuses it. -/
theorem stores_iff_check {db : Database} {conn : ℕ} {columns : List String} {values : List Expr}
    (absent : Absent db (insertedRow columns values)) :
    Stores db conn (.insert .messages columns values) ↔
      (Statement.insert .messages columns values).check = none := by
  have visible : ¬ (db.visible conn).any (insertedRow columns values).clashes = true := by
    simpa using fun x hx => absent x (Database.rows_of_visible hx)
  have pending : ¬ (db.pending.any fun p => (insertedRow columns values).clashes p.2) = true := by
    simpa using fun conn' x hx => absent x (Database.mem_rows.mpr (.inr ⟨conn', hx⟩))
  unfold insertedRow at visible pending
  unfold Stores
  cases hcheck : (Statement.insert .messages columns values).check with
  | some error => simp [Database.execute, hcheck, Except.isOk, Except.toBool]
  | none =>
      simp only [Database.execute, hcheck, Database.insertMessage, if_neg visible, if_neg pending]
      split <;> simp [Except.isOk, Except.toBool]

/-- The event of a request is stored exactly if its texts fit. -/
theorem stores_routed_iff (h : Validated r) {db : Database} (conn : ℕ)
    (absent : Absent db (r.stored reply)) :
    Stores db conn (BatchIdempotencyService.insertMessage (r.routed reply).toCheck) ↔
      reply.messageId.length ≤ 36 ∧ reply.dedupKey.length ≤ 128 ∧ FitsColumns r := by
  obtain ⟨columns, values, heq, hrow⟩ := insertMessage_routed h reply
  rw [← wellFormed_routed h reply, ParsedKafkaMessage.WellFormed, heq,
    stores_iff_check (hrow ▸ absent)]

/-- What the router has accepted the aggregator can store exactly if its texts fit. -/
theorem storable_iff (uuids : ∀ n, (uuid n).length = 36)
    (hashes : ∀ text, (sha256 text).length = 64)
    (valid : MessageController.validateRequest r.toRequest = .ok ())
    (hrun : (MessageController.handleCreateMessage sha256 r.toRequest).run
      (World.handler uuid choose) w = (.ok reply, w')) (accepted : reply.status = .accepted) :
    ∃ record entry e, w'.log = w.log ++ [record, entry] ∧ parseEvent record.value = .ok e ∧
      ∀ (db : Database) (conn : ℕ), Absent db (r.stored reply) →
        (Stores db conn (BatchIdempotencyService.insertMessage e.toCheck) ↔ FitsColumns r) := by
  obtain ⟨record, entry, hlog, -, hparse, hdedup, hid⟩ := published_of_accepted valid hrun accepted
  refine ⟨record, entry, _, hlog, hparse, fun db conn absent => ?_⟩
  rw [stores_routed_iff (validated valid) conn absent, hid, hdedup, uuids, TextRequest.dedupKey,
    hashes]
  constructor
  · exact fun h => h.2.2
  · exact fun h => ⟨by decide, by decide, h⟩

section Samples

def sampleUuid : String := "3f2504e0-4f89-41d3-9a0c-0305e82c3301"

/-- The SHA-256 of the text that `orderShipped` is hashed as. -/
def orderHash : String := "aed5dee5d0ff5659918443a2ef852d4b2eb6b11784321823ac995832ed60ef8d"

/-- The reply to a request that is the first one, and the world it leaves. -/
def firstReply (hash : String) (r : TextRequest) : MessageResponse :=
  MessageController.response (fun _ => hash) (fun _ => sampleUuid) r 0 .accepted

def afterFirst (hash : String) (r : TextRequest) : World :=
  ((MessageController.handleCreateMessage (fun _ => hash) r.toRequest).run
    (World.handler (fun _ => sampleUuid) fun _ => { outcome := .ok ⟨true, none⟩ }) {}).2

/-- `orderShipped` for a tenant with a name of 129 characters. -/
def longTenant : TextRequest :=
  { orderShipped with tenantId := String.ofList (List.replicate 129 'a') }

/-- The SHA-256 of the text that `longTenant` is hashed as. -/
def longHash : String := "f4ee7b9d6aa82ab4bf9d4a559b65edbe73d591d9c949ced64dc9c207342f980d"

theorem run_first (hash : String) {r : TextRequest}
    (valid : MessageController.validateRequest r.toRequest = .ok ()) :
    (MessageController.handleCreateMessage (fun _ => hash) r.toRequest).run
        (World.handler (fun _ => sampleUuid) fun _ => { outcome := .ok ⟨true, none⟩ }) {} =
      (.ok (firstReply hash r), afterFirst hash r) := by
  obtain ⟨w', partition, entry, hrun, -⟩ := MessageController.run_of_miss (fun _ => hash)
    (fun _ => sampleUuid) (fun _ => { outcome := .ok ⟨true, none⟩ }) (w := {}) valid rfl
  rw [afterFirst, hrun]
  rfl

/-- Validation asks of a tenant no more than that it is there. -/
theorem validateRequest_tenant {tenantId : String} (h : tenantId ≠ "") :
    MessageController.validateRequest { orderShipped with tenantId }.toRequest = .ok () := by
  have hthere : MessageController.missingField { orderShipped with tenantId }.toRequest =
      MessageController.missingField orderShipped.toRequest := by
    simp [MessageController.missingField, TextRequest.toRequest, Json.truthy, orderShipped, h]
  have hshipped : MessageController.validateRequest orderShipped.toRequest = .ok () := by decide
  rw [← hshipped, MessageController.validateRequest, hthere, MessageController.validateRequest]
  rfl

/-- Accepted by the router, refused by the empty table. -/
theorem storable_fails :
    MessageController.validateRequest longTenant.toRequest = .ok () ∧
    ∃ record entry e, (afterFirst longHash longTenant).log = [record, entry] ∧
      parseEvent record.value = .ok e ∧
      Absent {} (longTenant.stored (firstReply longHash longTenant)) ∧
      ¬ Stores {} 0 (BatchIdempotencyService.insertMessage e.toCheck) := by
  have hlong : longTenant.tenantId.length = 129 :=
    (String.length_ofList).trans List.length_replicate
  have hthere : longTenant.tenantId ≠ "" := by
    intro h
    rw [h] at hlong
    cases hlong
  have valid := validateRequest_tenant hthere
  have accepted : (firstReply longHash longTenant).status = .accepted := rfl
  obtain ⟨record, entry, hlog, -, hparse, -⟩ :=
    published_of_accepted valid (run_first longHash valid) accepted
  have absent : Absent {} (longTenant.stored (firstReply longHash longTenant)) :=
    fun x hx => absurd hx List.not_mem_nil
  refine ⟨valid, record, entry, _, hlog, hparse, absent, fun stores => ?_⟩
  have fits := (stores_routed_iff (validated valid) 0 absent).mp stores
  have hlength : longTenant.tenantId.length ≤ 128 := fits.2.2.1
  omega

theorem storable_orderShipped :
    ∃ record entry e, (afterFirst orderHash orderShipped).log = [record, entry] ∧
      parseEvent record.value = .ok e ∧
      ∀ (db : Database) (conn : ℕ),
        Absent db (orderShipped.stored (firstReply orderHash orderShipped)) →
        (Stores db conn (BatchIdempotencyService.insertMessage e.toCheck) ↔
          FitsColumns orderShipped) := by
  have valid : MessageController.validateRequest orderShipped.toRequest = .ok () := by decide
  have uuids : ∀ n : ℕ, ((fun _ => sampleUuid) n).length = 36 :=
    fun _ => (by decide : sampleUuid.length = 36)
  have hashes : ∀ text : String, ((fun _ => orderHash) text).length = 64 :=
    fun _ => (by decide : orderHash.length = 64)
  have accepted : (firstReply orderHash orderShipped).status = .accepted := rfl
  exact storable_iff uuids hashes valid (run_first orderHash valid) accepted

end Samples

end Pipeline

end Notification
