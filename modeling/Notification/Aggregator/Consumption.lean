import Notification.Aggregator.Worker
import Notification.Infra.Rows

/-!
# What a worker does about a batch

The calls of a single `eachBatch` are judged from its own trace, whatever the other
workers do in between: what it may call given what it has done so far, and what has been
done about an event in the end. Calls may fail as long as they are `tolerable`: the SQL
statements of the preparation work, and so do the calls that write a failure down.
-/

namespace Notification

open Interaction Program

/-! ## Identities of events -/

def MessageToDeliver.ident (m : MessageToDeliver) : String × (String × String) × String :=
  (m.messageId, m.pair, m.dedupKey)

/-- The schema accepts the row of an event: no field is missing or too long. -/
def ParsedKafkaMessage.WellFormed (e : ParsedKafkaMessage) : Prop :=
  (BatchIdempotencyService.insertMessage e.toCheck).check = none

instance (e : ParsedKafkaMessage) : Decidable e.WellFormed := inferInstanceAs (Decidable (_ = _))

namespace Consuming

theorem some_of_text {field : Option String} (h : (Expr.text field).isUndefined = false) :
    ∃ text, field = some text := by
  cases field with
  | none => cases h
  | some text => exact ⟨text, rfl⟩

/-- The row of a well-formed event has the event's identity. -/
theorem ident_of_wellFormed {e : ParsedKafkaMessage} (h : e.WellFormed) :
    ∃ columns values, BatchIdempotencyService.insertMessage e.toCheck =
        .insert .messages columns values ∧
      (insertedRow columns values).ident = e.asMessage.ident ∧
      e.messageId = some e.asMessage.messageId ∧ e.tenantId = some e.asMessage.tenantId ∧
      e.effectiveKey = some e.asMessage.effectiveKey := by
  have hparams : (BatchIdempotencyService.insertMessage e.toCheck).params.any Expr.isUndefined =
      false := by
    by_contra hnot
    rw [Bool.not_eq_false] at hnot
    rw [ParsedKafkaMessage.WellFormed, Statement.check, if_pos hnot] at h
    cases h
  obtain ⟨messageId, dedupKey, userId, tenantId, channel, recipient, body, traceId, key,
    attempt⟩ := e
  simp only [BatchIdempotencyService.insertMessage, Statement.params, List.any_cons,
    Bool.or_eq_false_iff, ParsedKafkaMessage.toCheck] at hparams
  obtain ⟨hid, -, htenant, hdedup, -⟩ := hparams
  obtain ⟨messageId, rfl⟩ := some_of_text hid
  obtain ⟨tenantId, rfl⟩ := some_of_text htenant
  obtain ⟨dedupKey, rfl⟩ := some_of_text hdedup
  have hkey : ParsedKafkaMessage.effectiveKey ⟨some messageId, some dedupKey, userId,
      some tenantId, channel, recipient, body, traceId, key, attempt⟩ =
        some (MessageToDeliver.effectiveKey (ParsedKafkaMessage.asMessage ⟨some messageId,
          some dedupKey, userId, some tenantId, channel, recipient, body, traceId, key,
          attempt⟩)) := by
    simp only [ParsedKafkaMessage.effectiveKey, MessageToDeliver.effectiveKey,
      ParsedKafkaMessage.asMessage, Option.getD_some]
    cases key with
    | none => rfl
    | some key => by_cases hempty : key = "" <;> simp [hempty]
  refine ⟨_, _, rfl, ?_, rfl, rfl, hkey⟩
  simp only [insertedRow, MessageRow.ident, ParsedKafkaMessage.toCheck, hkey]
  rfl

theorem messageId_of_asMessage {e e' : ParsedKafkaMessage} (wellFormed : e.WellFormed)
    (wellFormed' : e'.WellFormed) (same : e.asMessage.messageId = e'.asMessage.messageId) :
    e.messageId = e'.messageId := by
  obtain ⟨_, _, _, _, hid, -⟩ := ident_of_wellFormed wellFormed
  obtain ⟨_, _, _, _, hid', -⟩ := ident_of_wellFormed wellFormed'
  rw [hid, hid', same]

theorem key_of_pair {e e' : ParsedKafkaMessage} (wellFormed : e.WellFormed)
    (wellFormed' : e'.WellFormed) (same : e.asMessage.pair = e'.asMessage.pair) :
    e.toCheck.key = e'.toCheck.key := by
  obtain ⟨_, _, _, _, -, htenant, hkey⟩ := ident_of_wellFormed wellFormed
  obtain ⟨_, _, _, _, -, htenant', hkey'⟩ := ident_of_wellFormed wellFormed'
  simp only [MessageToDeliver.pair, Prod.mk.injEq] at same
  simp only [MessageToCheckIdempotency.key, ParsedKafkaMessage.toCheck, htenant, htenant', hkey,
    hkey', same]

/-! ## Tolerable failures -/

/-- Infrastructure may fail where the batch goes on. The statements of the preparation
only fail where the schema says so, and writing a failure down does not fail. -/
def tolerable : CallEvent → Bool
  | ⟨.sql (.execute (.select columns keyColumns keys)), r⟩ =>
    (Statement.select columns keyColumns keys).check.isSome || r.isOk
  | ⟨.sql (.execute (.insert .messages columns values)), r⟩ =>
    accepted r == (Statement.insert .messages columns values).check.isNone
  | ⟨.sql (.execute _), _⟩ => true
  | ⟨.sql _, r⟩ => r.isOk
  | ⟨.repository (.updateStatus _ _ false _), r⟩ => r.isOk
  | ⟨.repository (.saveAttempt entity), r⟩ => entity.status == .success || r.isOk
  | ⟨.repository (.saveDLQEntry _), r⟩ => r.isOk
  | ⟨.redis (.zAdd _ _ _), r⟩ => r.isOk
  | ⟨.now, .ok now⟩ => 0 ≤ now && now + longestDelay ≤ maxTimeValue
  | ⟨.now, .error _⟩ => false
  | _ => true

/-- An event that does no harm to a batch. -/
abbrev Tolerable (ev : CallEvent) : Prop := tolerable ev = true

theorem exists_of_isOk {α : Type} {r : Except JsError α} (h : r.isOk = true) : ∃ a, r = .ok a := by
  cases r with
  | error e => cases h
  | ok a => exact ⟨a, rfl⟩

theorem exists_of_now {r : Except JsError Int} (h : Tolerable ⟨.now, r⟩) :
    ∃ now : Clock, r = .ok now.time := by
  cases r with
  | error e => cases h
  | ok now =>
      simp only [Tolerable, tolerable, Bool.and_eq_true, decide_eq_true_eq] at h
      obtain ⟨time, rfl⟩ := Int.eq_ofNat_of_zero_le h.1
      exact ⟨⟨time, Int.ofNat_le.mp h.2⟩, rfl⟩

theorem isOk_of_exists {α : Type} {r : Except JsError α} (h : ∃ a, r = .ok a) : r.isOk = true := by
  obtain ⟨a, rfl⟩ := h
  rfl

/-- Without failures every event is tolerable. -/
theorem tolerable_of_up {uuid : ℕ → String} {pid : ℕ} {w w' : World} {ev : CallEvent}
    (h : w.up uuid pid ev w') : Tolerable ev := by
  have succeeds := World.up_succeeds h
  obtain ⟨call, r⟩ := ev
  obtain ⟨choice, h⟩ := h
  cases call with
  | sql c =>
      cases c with
      | execute statement =>
          cases statement with
          | select columns keyColumns keys =>
              simp only [World.answer, Database.answer, Database.execute] at h
              cases hcheck : (Statement.select columns keyColumns keys).check <;>
                simp only [hcheck] at h <;> cases h <;> simp [Tolerable, tolerable, hcheck]
              rfl
          | insert table columns values =>
              cases table with
              | messages =>
                  simp only [World.answer, Database.answer, Database.execute] at h
                  cases hcheck : (Statement.insert .messages columns values).check with
                  | some e =>
                      simp only [hcheck] at h
                      cases h
                      simp [Tolerable, tolerable, hcheck, accepted, Statement.check_code hcheck]
                  | none =>
                      simp only [hcheck, Database.insertMessage] at h
                      split at h
                      · cases h
                        simp [Tolerable, tolerable, hcheck, accepted, SqlError.dupEntry]
                      · split at h
                        · cases h
                        · split at h <;> cases h <;>
                            simp [Tolerable, tolerable, hcheck, accepted]
              | _ => rfl
          | update assignments keyColumn key => rfl
      | _ => exact isOk_of_exists succeeds
  | repository c =>
      cases c with
      | updateStatus messageId status finalDelivered attempts =>
          cases finalDelivered with
          | false => exact isOk_of_exists succeeds
          | true => rfl
      | getStatus messageId => rfl
      | saveAttempt entity =>
          show (_ || _) = true
          rw [isOk_of_exists succeeds, Bool.or_true]
      | saveDLQEntry entity => exact isOk_of_exists succeeds
  | redis c =>
      cases c with
      | zAdd key score member => exact isOk_of_exists succeeds
      | _ => rfl
  | now =>
      cases h
      simp only [Tolerable, tolerable, Bool.and_eq_true, decide_eq_true_eq]
      exact ⟨Int.natCast_nonneg _, Int.ofNat_le.mpr choice.now.timely⟩
  | _ => rfl

/-! ## Kinds of events -/

/-- An accepted `INSERT` of a row with this identity. -/
def inserts (ident : String × (String × String) × String) : CallEvent → Bool
  | ⟨.sql (.execute (.insert .messages columns values)), r⟩ =>
    accepted r && (insertedRow columns values).ident == ident
  | _ => false

def isSelect : CallEvent → Bool
  | ⟨.sql (.execute (.select _ _ _)), _⟩ => true
  | _ => false

def isInsert : CallEvent → Bool
  | ⟨.sql (.execute (.insert _ _ _)), _⟩ => true
  | _ => false

def isCommit : CallEvent → Bool
  | ⟨.sql .commit, _⟩ => true
  | _ => false

def isRollback : CallEvent → Bool
  | ⟨.sql .rollback, _⟩ => true
  | _ => false

/-- Part of the delivery of a message. -/
def isDelivery : CallEvent → Bool
  | ⟨.send .., _⟩ => true
  | ⟨.repository (.updateStatus _ _ _ _), _⟩ => true
  | _ => false

/-- The rows a `SELECT` has returned. -/
def answeredRows : CallEvent → List MessageRow
  | ⟨.sql (.execute (.select _ _ _)), .ok rows⟩ => rows
  | _ => []

def sends (m : MessageToDeliver) : CallEvent → Bool
  | ⟨.send _ _ _ _ m', _⟩ => m' == m
  | _ => false

/-- The status check has found the message delivered. -/
def hits (messageId : String) : CallEvent → Bool
  | ⟨.repository (.getStatus messageId'), .ok status⟩ =>
    messageId' == messageId && (status.map MessageStatus.finalDelivered).getD false
  | _ => false

/-- The status check has failed. -/
def unread (messageId : String) : CallEvent → Bool
  | ⟨.repository (.getStatus messageId'), .error _⟩ => messageId' == messageId
  | _ => false

/-- A duplicate check of a message that does not find it delivered. -/
def misses (messageId dedupKey : String) : CallEvent → Bool
  | ⟨.redis (.exists key), .ok n⟩ =>
    key == DeliveryDeduplicationService.buildDeliveryKey dedupKey && n != 1
  | ⟨.redis (.exists key), .error _⟩ =>
    key == DeliveryDeduplicationService.buildDeliveryKey dedupKey
  | ⟨.repository (.getStatus messageId'), .ok status⟩ =>
    messageId' == messageId && !(status.map MessageStatus.finalDelivered).getD false
  | _ => false

/-- The provider call for the message, or `SENT` written for it. -/
def closes (messageId : String) : CallEvent → Bool
  | ⟨.send _ _ _ _ m, _⟩ => m.messageId == messageId
  | ⟨.repository (.updateStatus messageId' .sent true _), _⟩ => messageId' == messageId
  | _ => false

/-- A duplicate check has missed the message, and its provider call has not been made yet. -/
def opened (messageId dedupKey : String) : Trace Reply JsError → Bool
  | [] => false
  | ev :: t => !closes messageId ev && (misses messageId dedupKey ev || opened messageId dedupKey t)

/-! ## What is known of a row -/

/-- What an event says of the status and `finalDelivered` of a message's row. -/
def learns (messageId : String) : CallEvent → Status × Bool → Status × Bool
  | ⟨.repository (.updateStatus messageId' status finalDelivered _), .ok _⟩, known =>
    if messageId' = messageId then (status, finalDelivered) else known
  | ⟨.repository (.getStatus messageId'), .ok status⟩, known =>
    if messageId' = messageId ∧ (status.map MessageStatus.finalDelivered).getD false = true then
      (known.1, true)
    else known
  | _, known => known

/-- What a worker knows of a row that only it has changed since its `INSERT`. -/
def known (messageId : String) (t : Trace Reply JsError) : Status × Bool :=
  t.foldr (learns messageId) (.inProgress, false)

/-- A DLQ entry of the message. -/
def buries (messageId : String) : CallEvent → Bool
  | ⟨.repository (.saveDLQEntry entity), .ok _⟩ => entity.messageId == messageId
  | _ => false

/-- A retry of the message. -/
def Schedules (messageId : String) (ev : CallEvent) : Prop :=
  ∃ score channel attempt, ev = ⟨.redis (.zAdd "retries" score
    (RetrySchedulerService.payload messageId channel attempt)), .ok ()⟩

/-- The message is delivered, in the DLQ, or has a retry. -/
def Concluded (messageId : String) (t : Trace Reply JsError) : Prop :=
  (known messageId t).2 = true ∨
  ((known messageId t).1 = .failed ∧ t.any (buries messageId) = true) ∨
  ∃ ev ∈ t, Schedules messageId ev

/-! ## What a worker may do -/

/-- The events of a batch; none if one of them cannot be parsed. -/
def entries (b : Batch) : List ParsedKafkaMessage :=
  match b.messages.mapM KafkaMessage.parse with
  | .ok parsedMessages => parsedMessages
  | .error _ => []

theorem mem_of_mapM_parse {e : ParsedKafkaMessage} {messages : List KafkaMessage}
    {es : List ParsedKafkaMessage}
    (h : messages.mapM KafkaMessage.parse = .ok es) :
    e ∈ es ↔ ∃ msg ∈ messages, msg.parse = .ok e := by
  induction messages generalizing es with
  | nil =>
      cases h
      simp
  | cons msg rest ih =>
      rw [List.mapM_cons] at h
      cases hmsg : msg.parse with
      | error error =>
          rw [hmsg] at h
          cases h
      | ok e₀ =>
          cases hrest : rest.mapM KafkaMessage.parse with
          | error error =>
              rw [hmsg, hrest] at h
              cases h
          | ok es₀ =>
              rw [hmsg, hrest] at h
              cases h
              simp [ih hrest, hmsg, eq_comm]

theorem mapM_parse_ok {messages : List KafkaMessage}
    (h : ∀ msg ∈ messages, ∃ e, msg.parse = .ok e) :
    ∃ es, messages.mapM KafkaMessage.parse = .ok es := by
  induction messages with
  | nil => exact ⟨[], rfl⟩
  | cons msg rest ih =>
      obtain ⟨e, he⟩ := h msg List.mem_cons_self
      obtain ⟨es, hes⟩ := ih fun msg' member => h msg' (List.mem_cons_of_mem _ member)
      exact ⟨e :: es, by rw [List.mapM_cons, he, hes]; rfl⟩

/-- The bulk query of a batch. -/
def bulkSelect (b : Batch) : Statement :=
  BatchIdempotencyService.selectExisting (BatchIdempotencyService.extractUniqueIdempotencyKeys
    ((entries b).map ParsedKafkaMessage.toCheck))

/-- The duplicate check has not found the event's key. -/
def Unmatched (e : ParsedKafkaMessage) (t : Trace Reply JsError) : Prop :=
  ∀ ev ∈ t, ∀ r ∈ answeredRows ev, r.key ≠ e.toCheck.key

/-- The duplicate check has found the key of an event with the same `messageId`. -/
def Matched (b : Batch) (e : ParsedKafkaMessage) (t : Trace Reply JsError) : Prop :=
  ∃ ev ∈ t, ∃ r ∈ answeredRows ev, ∃ e' ∈ entries b,
    e'.messageId = e.messageId ∧ r.key = e'.toCheck.key

/-- A message of the batch whose row has been inserted or found to be there. -/
structure Ready (b : Batch) (m : MessageToDeliver) (t : Trace Reply JsError) : Prop where
  entry : ∃ e ∈ entries b, e.WellFormed ∧ e.asMessage = m ∧ Unmatched e t
  inserted : t.any (inserts m.ident) = true
  committed : t.any isCommit = true
  kept : t.any isRollback = false

/-- The delivery of the message has got past the point where it could still be found
delivered. -/
def Tried (m : MessageToDeliver) (t : Trace Reply JsError) : Prop :=
  t.any (sends m) = true ∨ t.any (unread m.messageId) = true

/-- What the worker of a batch may do next. -/
def MayConsume (b : Batch) (ev : CallEvent) (before : Trace Reply JsError) : Prop :=
  match ev.call with
  | .send _ _ _ options m =>
    options.idempotencyToken = m.messageId ∧ Ready b m before ∧
      opened m.messageId m.dedupKey before = true
  | .repository (.updateStatus messageId _ _ _) =>
    ∃ m, messageId = m.messageId ∧ Ready b m before ∧ Tried m before
  | .sql .rollback => before.any isDelivery = false
  | .sql (.execute (.select columns keyColumns keys)) =>
    .select columns keyColumns keys = bulkSelect b ∧ before.any isInsert = false
  | .sql (.execute (.insert table columns values)) =>
    (∃ e ∈ entries b, Unmatched e before ∧
      .insert table columns values = BatchIdempotencyService.insertMessage e.toCheck) ∧
    before.any isSelect = true ∧ before.any isCommit = false ∧ before.any isDelivery = false
  | .sql (.execute (.update _ _ _)) => False
  | _ => True

theorem MayConsume.noUpdate {b : Batch} {ev : CallEvent} {before : Trace Reply JsError}
    (may : MayConsume b ev before) (assignments : List (String × Expr)) (keyColumn : String)
    (key : Expr) : ev.call ≠ .sql (.execute (.update assignments keyColumn key)) := by
  intro hcall
  rw [MayConsume, hcall] at may
  exact may

/-- What has been done about an entry: its key was among the rows that the check found, or
its row is there and its delivery has come to an end. -/
def Handled (b : Batch) (e : ParsedKafkaMessage) (t : Trace Reply JsError) : Prop :=
  Matched b e t ∨ (Ready b e.asMessage t ∧ Concluded e.asMessage.messageId t ∧
    (Tried e.asMessage t ∨ t.any (hits e.asMessage.messageId) = true))

section Traces

variable {b : Batch} {e : ParsedKafkaMessage} {m : MessageToDeliver} {ev : CallEvent}
  {t t' : Trace Reply JsError} {messageId : String}

theorem any_of_suffix {p : CallEvent → Bool} (h : t <:+ t') (any : t.any p = true) :
    t'.any p = true := by
  obtain ⟨u, rfl⟩ := h
  simp [any]

theorem Ready.cons (h : Ready b m t) (kept : isRollback ev = false)
    (silent : answeredRows ev = []) : Ready b m (ev :: t) := by
  obtain ⟨e, entry, wellFormed, hm, unmatched⟩ := h.entry
  refine ⟨⟨e, entry, wellFormed, hm, fun ev' hev r hr => ?_⟩, by simp [h.inserted],
    by simp [h.committed], by simp [kept, h.kept]⟩
  obtain rfl | hev := List.mem_cons.mp hev
  · rw [silent] at hr
    cases hr
  · exact unmatched ev' hev r hr

theorem Tried.mono (h : Tried m t) (suffix : t <:+ t') : Tried m t' :=
  h.imp (any_of_suffix suffix) (any_of_suffix suffix)

theorem Matched.mono (h : Matched b e t) (suffix : t <:+ t') : Matched b e t' := by
  obtain ⟨ev, hev, h⟩ := h
  exact ⟨ev, suffix.subset hev, h⟩

theorem Concluded.cons (h : Concluded messageId t) (same : ∀ k, learns messageId ev k = k) :
    Concluded messageId (ev :: t) := by
  have hknown : known messageId (ev :: t) = known messageId t := same _
  obtain h | ⟨h, hdlq⟩ | ⟨ev', hev, h⟩ := h
  · exact .inl (hknown ▸ h)
  · exact .inr (.inl ⟨hknown ▸ h, by simp [hdlq]⟩)
  · exact .inr (.inr ⟨ev', List.mem_cons_of_mem _ hev, h⟩)

theorem Handled.cons (h : Handled b e t) (kept : isRollback ev = false)
    (silent : answeredRows ev = []) (same : ∀ k, learns e.asMessage.messageId ev k = k) :
    Handled b e (ev :: t) := by
  obtain h | ⟨ready, concluded, h⟩ := h
  · exact .inl (h.mono (List.suffix_cons _ _))
  · exact .inr ⟨ready.cons kept silent, concluded.cons same, h.imp
      (fun h => h.mono (List.suffix_cons _ _)) (any_of_suffix (List.suffix_cons _ _))⟩

end Traces

end Consuming

end Notification
