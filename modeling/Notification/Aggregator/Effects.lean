import Notification.Aggregator.Consumption
import Notification.Aggregator.Partition

/-!
# Which programs call a provider or insert a message

Apart from one `send` and one `INSERT`, everything the aggregator does for a message is
bookkeeping.
-/

namespace Notification

open Interaction Program

/-- Neither a provider call nor an `INSERT` into `messages`. -/
def Bookkeeping : CallEvent → Prop
  | ⟨.send .., _⟩ => False
  | ⟨.sql (.execute (.insert .messages _ _)), _⟩ => False
  | _ => True

/-- No method of the repository calls a provider or inserts a message. -/
structure IDeliveryRepository.Keeps (deliveryRepository : IDeliveryRepository) : Prop where
  saveAttempt (entity : DeliveryAttempt) : (deliveryRepository.saveAttempt entity).Makes Bookkeeping
  saveDLQEntry (entity : DLQEntry) : (deliveryRepository.saveDLQEntry entity).Makes Bookkeeping
  updateStatus (messageId : String) (status : Status) (finalDelivered : Bool) (attempts : Int) :
    (deliveryRepository.updateStatus messageId status finalDelivered attempts).Makes Bookkeeping
  getStatus (messageId : String) : (deliveryRepository.getStatus messageId).Makes Bookkeeping

theorem keeps_interfaceRepository : interfaceRepository.Keeps where
  saveAttempt _ := makes_perform.mpr fun _ => trivial
  saveDLQEntry _ := makes_perform.mpr fun _ => trivial
  updateStatus _ _ _ _ := makes_perform.mpr fun _ => trivial
  getStatus _ := makes_perform.mpr fun _ => trivial

theorem makes_withConnection {α : Type} {body : Prog α} (h : body.Makes Bookkeeping) :
    (withConnection body).Makes Bookkeeping :=
  Makes.bind (makes_perform.mpr fun _ => trivial) fun _ =>
    h.andFinally (makes_perform.mpr fun _ => trivial)

theorem keeps_deliveryRepository : deliveryRepository.Keeps where
  saveAttempt _ := makes_withConnection (makes_perform.mpr fun _ => trivial)
  saveDLQEntry _ := makes_withConnection (makes_perform.mpr fun _ => trivial)
  updateStatus _ _ _ _ := makes_withConnection (makes_perform.mpr fun _ => trivial)
  getStatus _ := makes_withConnection (Makes.bind (makes_perform.mpr fun _ => trivial) fun _ =>
    makes_pure _)

/-- Neither a statement nor a call of the repository or of a provider. -/
def Aside : Call → Bool
  | .sql _ => false
  | .repository _ => false
  | .send .. => false
  | _ => true

/-- All that a delivery does besides its provider call stays within `S`. -/
structure IDeliveryRepository.Within (R : IDeliveryRepository) (S : CallEvent → Prop) : Prop where
  aside (c : Call) (r : Except JsError (Reply c)) : Aside c = true → S ⟨c, r⟩
  saveAttempt (entity : DeliveryAttempt) : (R.saveAttempt entity).Makes S
  saveDLQEntry (entity : DLQEntry) : (R.saveDLQEntry entity).Makes S
  getStatus (messageId : String) : (R.getStatus messageId).Makes S
  markSent (messageId : String) (attempts : Int) :
    (R.updateStatus messageId .sent true attempts).Makes S
  markFailed (messageId : String) (attempts : Int) :
    (R.updateStatus messageId .failed false attempts).Makes S
  markPending (messageId : String) (attempts : Int) :
    (R.updateStatus messageId .pending false attempts).Makes S

theorem IDeliveryRepository.Keeps.within {R : IDeliveryRepository} (keeps : R.Keeps) :
    R.Within Bookkeeping where
  aside c _ h := by
    cases c with
    | sql c => cases h
    | repository c => cases h
    | send provider recipient body options message => cases h
    | _ => exact trivial
  saveAttempt := keeps.saveAttempt
  saveDLQEntry := keeps.saveDLQEntry
  getStatus := keeps.getStatus
  markSent _ _ := keeps.updateStatus _ _ _ _
  markFailed _ _ := keeps.updateStatus _ _ _ _
  markPending _ _ := keeps.updateStatus _ _ _ _

theorem IDeliveryRepository.Within.mono {R : IDeliveryRepository} {S S' : CallEvent → Prop}
    (within : R.Within S) (imp : ∀ ev, S ev → S' ev) : R.Within S' where
  aside c r h := imp _ (within.aside c r h)
  saveAttempt entity := (within.saveAttempt entity).mono imp
  saveDLQEntry entity := (within.saveDLQEntry entity).mono imp
  getStatus messageId := (within.getStatus messageId).mono imp
  markSent messageId attempts := (within.markSent messageId attempts).mono imp
  markFailed messageId attempts := (within.markFailed messageId attempts).mono imp
  markPending messageId attempts := (within.markPending messageId attempts).mono imp

namespace DeliveryProcessorService

variable {R : IDeliveryRepository} {S : CallEvent → Prop} (within : R.Within S)
  (m : MessageToDeliver) (currentAttempt : Int)

include within

theorem makes_aside {c : Call} (h : Aside c = true) : (perform c : Prog (Reply c)).Makes S :=
  makes_perform.mpr fun r => within.aside c r h

theorem makes_alreadyDelivered : (alreadyDelivered R m).Makes S := by
  refine Makes.bind (Makes.tryCatch ?_ fun _ => trivial) fun isNew => Makes.ite trivial ?_
  · refine Makes.bind (makes_aside within rfl) fun _ => Makes.ite trivial ?_
    exact Makes.bind (makes_aside within rfl) fun _ => trivial
  · exact Makes.bind (within.getStatus m.messageId) fun _ => trivial

theorem makes_recordSuccess (result : ProviderResult) :
    (recordSuccess R m currentAttempt result).Makes S := by
  apply Makes.bind (within.markSent _ _)
  intro _
  apply Makes.bind (makes_aside within rfl)
  intro _
  apply Makes.bind (within.saveAttempt _)
  intro _
  refine Makes.bind (Makes.tryCatch (makes_aside within rfl) fun _ => trivial) fun _ => ?_
  exact makes_aside within rfl

theorem makes_handleMaxAttemptsReached (errorMsg : String) :
    (handleMaxAttemptsReached R m currentAttempt errorMsg).Makes S := by
  apply Makes.bind (within.markFailed _ _)
  intro _
  apply Makes.bind (within.saveDLQEntry _)
  intro _
  apply Makes.bind (makes_aside within rfl)
  intro _
  apply Makes.bind (makes_aside within rfl)
  intro _
  exact Makes.bind (makes_aside within rfl) fun _ => trivial

theorem makes_handleRetry (errorMsg : String) :
    (handleRetry R m currentAttempt errorMsg).Makes S := by
  apply Makes.bind (within.markPending _ _)
  intro _
  refine Makes.bind (Makes.bind (makes_aside within rfl) fun _ =>
    Makes.bind (makes_done _) fun _ => makes_aside within rfl) fun _ => ?_
  exact Makes.bind (makes_aside within rfl) fun _ => trivial

theorem makes_handleFailure (e : JsError) : (handleFailure R m currentAttempt e).Makes S := by
  refine Makes.bind (within.saveAttempt _) fun _ => Makes.ite ?_ ?_
  · exact makes_handleMaxAttemptsReached within m currentAttempt _
  · exact makes_handleRetry within m currentAttempt _

/-- One delivery makes one kind of provider call. -/
theorem makes_processDelivery {provider : IProvider}
    (sends : ∀ r, S ⟨.send provider.name m.recipient m.body (sendOptions m (m.attempt + 1)) m, r⟩) :
    (processDelivery R provider m).Makes S := by
  refine Makes.tryCatch ?_ fun e => makes_handleFailure within m _ e
  refine Makes.bind (makes_alreadyDelivered within m) fun _ => Makes.ite trivial ?_
  apply Makes.bind (makes_perform.mpr sends)
  intro result
  exact Makes.bind (makes_recordSuccess within m _ result) fun _ => trivial

end DeliveryProcessorService

namespace BatchIdempotencyService

variable {messages : List MessageToCheckIdempotency}

theorem makes_checkBatchIdempotency : (checkBatchIdempotency messages).Makes Bookkeeping := by
  refine Makes.ite trivial (makes_withConnection ?_)
  exact Makes.bind (Makes.ite trivial (makes_perform.mpr fun _ => trivial)) fun _ => trivial

/-- The check hands back a partition of the batch. -/
theorem returns_checkBatchIdempotency : (checkBatchIdempotency messages).Returns
    fun result => ∃ rows, result = partitionBatch rows messages := by
  rw [checkBatchIdempotency]
  split
  · next hempty => exact ⟨[], by rw [List.length_eq_zero_iff.mp hempty]; rfl⟩
  · exact Returns.bind (returns_true _) fun _ _ => Returns.andFinally
      (Returns.bind (returns_true _) fun rows _ => ⟨rows, rfl⟩)

/-- Besides the `INSERT`s of its messages the transaction only makes calls that carry no
statement. -/
theorem makes_insertNewMessagesInProgress {S : CallEvent → Prop}
    (control : ∀ c r, (∀ statement, c ≠ .execute statement) → S ⟨.sql c, r⟩)
    (inserts : ∀ m ∈ messages, ∀ r, S ⟨.sql (.execute (insertMessage m)), r⟩) :
    (insertNewMessagesInProgress messages).Makes S := by
  have plain {c : SqlCall} (h : ∀ statement, c ≠ .execute statement) :
      (perform (Call.sql c) : Prog (Reply (Call.sql c))).Makes S :=
    makes_perform.mpr fun r => control c r h
  refine Makes.ite trivial (Makes.bind (plain (by simp)) fun _ =>
    Makes.andFinally ?_ (plain (by simp)))
  refine Makes.tryCatch ?_ fun _ => Makes.bind (plain (by simp)) fun _ => trivial
  refine Makes.bind (plain (by simp)) fun _ => Makes.bind (Makes.forEach fun m member => ?_)
    fun _ => Makes.bind (plain (by simp)) fun _ => trivial
  exact Makes.tryCatch (Makes.bind (makes_perform.mpr (inserts m member)) fun _ => trivial)
    fun _ => Makes.ite trivial trivial

theorem bookkeeping_control {c : SqlCall} (r : Except JsError c.Reply)
    (h : ∀ statement, c ≠ .execute statement) : Bookkeeping ⟨.sql c, r⟩ := by
  cases c with
  | execute statement => exact absurd rfl (h statement)
  | _ => trivial

end BatchIdempotencyService

namespace Worker

variable {R : IDeliveryRepository} {b : Batch} {S : CallEvent → Prop}

theorem makes_resolveBatch (messages : List KafkaMessage) (results : List ProcessResult) :
    (resolveBatch messages results).Makes Bookkeeping := by
  refine Makes.ite ?_ trivial
  cases messages.getLast? with
  | none => trivial
  | some last =>
      exact Makes.bind (makes_perform.mpr fun _ => trivial) fun _ =>
        makes_perform.mpr fun _ => trivial

/-- What `eachBatch` inserts and sends is made of the events of the batch. -/
theorem makes_eachBatch (keeps : R.Keeps) (bookkeeping : ∀ ev, Bookkeeping ev → S ev)
    (inserts : ∀ e ∈ Consuming.entries b, ∀ r,
      S ⟨.sql (.execute (BatchIdempotencyService.insertMessage e.toCheck)), r⟩)
    (sends : ∀ e ∈ Consuming.entries b, ∀ provider,
      ProviderFactory.getProvider (channelOf b.topic) = .ok provider →
        ∀ r, S ⟨.send provider.name e.asMessage.recipient e.asMessage.body
          (DeliveryProcessorService.sendOptions e.asMessage (e.asMessage.attempt + 1)) e.asMessage,
          r⟩) : (eachBatch R b).Makes S := by
  have resolves (results : List ProcessResult) : (resolveBatch b.messages results).Makes S :=
    (makes_resolveBatch b.messages results).mono bookkeeping
  rw [eachBatch]
  refine Makes.tryCatch ?_ fun _ => trivial
  cases hes : b.messages.mapM KafkaMessage.parse with
  | error e => trivial
  | ok es =>
      have hentries : Consuming.entries b = es := by rw [Consuming.entries, hes]
      rw [hentries] at inserts sends
      change (processBatch R b es).Makes S
      refine Makes.bind_of (BatchIdempotencyService.makes_checkBatchIdempotency.mono bookkeeping)
        BatchIdempotencyService.returns_checkBatchIdempotency ?_
      rintro _ ⟨rows, rfl⟩
      have inserted : (BatchIdempotencyService.insertNewMessagesInProgress
          (BatchIdempotencyService.partitionBatch rows
            (es.map ParsedKafkaMessage.toCheck)).newMessages).Makes S := by
        apply BatchIdempotencyService.makes_insertNewMessagesInProgress
          fun c r h => bookkeeping _ (BatchIdempotencyService.bookkeeping_control r h)
        intro m hm
        rw [BatchIdempotencyService.partitionBatch_eq] at hm
        obtain ⟨e, he, rfl⟩ := List.mem_map.mp (List.mem_of_mem_filter hm)
        exact inserts e he
      have delivered : (forEach es (processMessage R (channelOf b.topic)
          (BatchIdempotencyService.partitionBatch rows
            (es.map ParsedKafkaMessage.toCheck)).duplicateMessages)).Makes S := by
        refine Makes.forEach fun e he => Makes.ite trivial (Makes.tryCatch ?_ fun _ => trivial)
        cases hprovider : ProviderFactory.getProvider (channelOf b.topic) with
        | error e => trivial
        | ok provider =>
            change (DeliveryProcessorService.processDelivery R provider e.asMessage).Makes S
            exact DeliveryProcessorService.makes_processDelivery (keeps.within.mono bookkeeping)
              e.asMessage (sends e he provider hprovider)
      refine Makes.ite (Makes.bind inserted fun _ => ?_) ?_
      · exact Makes.bind delivered resolves
      · exact Makes.bind delivered resolves

end Worker

end Notification
