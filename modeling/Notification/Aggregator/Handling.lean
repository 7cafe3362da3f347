import Notification.Aggregator.Preparation

/-!
# The deliveries of a batch

`processDelivery` for one message after another. Whatever throws in between, a delivery
ends with the message found delivered, written down as sent, put into the DLQ or scheduled
for a retry. In the end every event of a well-formed batch has been handled.
-/

namespace Notification

open Interaction Program

namespace Consuming

/-- A call made in the delivery of `m`. -/
def Concerns (m : MessageToDeliver) (ev : CallEvent) : Prop :=
  match ev.call with
  | .sql _ => False
  | .repository (.updateStatus messageId _ _ _) => messageId = m.messageId
  | .repository (.getStatus messageId) => messageId = m.messageId
  | _ => True

section Concerns

variable {m : MessageToDeliver} {ev : CallEvent}

theorem Concerns.kept (h : Concerns m ev) : isRollback ev = false := by
  unfold isRollback
  split
  · exact h.elim
  · rfl

theorem Concerns.silent (h : Concerns m ev) : answeredRows ev = [] := by
  unfold answeredRows
  split
  · exact h.elim
  · rfl

/-- The delivery of a message says nothing about the others. -/
theorem Concerns.learns {messageId : String} (h : Concerns m ev) (hne : messageId ≠ m.messageId)
    (k : Status × Bool) : learns messageId ev k = k := by
  unfold Consuming.learns
  split
  · next messageId' status finalDelivered attempts _ _ =>
      exact if_neg fun heq => hne (heq.symm.trans h)
  · next messageId' status _ =>
      exact if_neg fun heq => hne (heq.1.symm.trans h)
  · rfl

end Concerns

/-- In the delivery of `m`, which began with the trace `t₀`. -/
structure Attempting (b : Batch) (rows : List MessageRow) (t₀ : Trace Reply JsError)
    (m : MessageToDeliver) (t : Trace Reply JsError) : Prop extends Delivers b rows t where
  isFresh : ∃ e ∈ fresh rows (entries b), e.asMessage = m
  others : ∀ messageId, messageId ≠ m.messageId → Concluded messageId t₀ → Concluded messageId t

/-- In the delivery of `m`, past its duplicate check. -/
structure Attempted (b : Batch) (rows : List MessageRow) (t₀ : Trace Reply JsError)
    (m : MessageToDeliver) (t : Trace Reply JsError) : Prop extends Attempting b rows t₀ m t where
  tried : Tried m t

/-- At the end of the delivery of `m`. -/
structure Finished (b : Batch) (rows : List MessageRow) (t₀ : Trace Reply JsError)
    (m : MessageToDeliver) (t : Trace Reply JsError) : Prop extends Attempting b rows t₀ m t where
  concluded : Concluded m.messageId t
  reached : Tried m t ∨ t.any (hits m.messageId) = true

section Deliveries

variable {b : Batch} {rows : List MessageRow} {m : MessageToDeliver} {ev : CallEvent}
  {t₀ t : Trace Reply JsError} {provider : IProvider}

theorem Attempting.toReady (h : Attempting b rows t₀ m t) : Ready b m t := by
  obtain ⟨e, he, rfl⟩ := h.isFresh
  exact h.ready e he

theorem Attempting.cons (h : Attempting b rows t₀ m t) (may : MayConsume b ev t)
    (concerns : Concerns m ev) : Attempting b rows t₀ m (ev :: t) := by
  refine ⟨⟨⟨may, h.always⟩, fun r hr => ?_, fun e he => ?_⟩, h.isFresh, fun messageId hne hc => ?_⟩
  · obtain ⟨ev', hev, hr⟩ := h.found r hr
    exact ⟨ev', List.mem_cons_of_mem _ hev, hr⟩
  · exact (h.ready e he).cons concerns.kept concerns.silent
  · exact (h.others messageId hne hc).cons (concerns.learns hne)

theorem Attempted.cons (h : Attempted b rows t₀ m t) (may : MayConsume b ev t)
    (concerns : Concerns m ev) : Attempted b rows t₀ m (ev :: t) :=
  ⟨h.toAttempting.cons may concerns, h.tried.mono (List.suffix_cons _ _)⟩

theorem Attempted.finish (h : Attempted b rows t₀ m t) (concluded : Concluded m.messageId t) :
    Finished b rows t₀ m t := ⟨h.toAttempting, concluded, .inl h.tried⟩

/-- One more event of a delivery. -/
theorem Attempting.and {Q : Prop} (h : Attempting b rows t₀ m t)
    (next : Attempting b rows t₀ m t → Q) : Always (MayConsume b) t ∧ Q := ⟨h.always, next h⟩

theorem Attempted.and {Q : Prop} (h : Attempted b rows t₀ m t)
    (next : Attempted b rows t₀ m t → Q) : Always (MayConsume b) t ∧ Q := ⟨h.always, next h⟩

theorem Finished.and {Q : Prop} (h : Finished b rows t₀ m t)
    (next : Finished b rows t₀ m t → Q) : Always (MayConsume b) t ∧ Q := ⟨h.always, next h⟩

/-- A Redis error of the duplicate check counts as a miss. -/
theorem wp_checkDeliveryDedup (h : Attempting b rows t₀ m t) :
    (DeliveryDeduplicationService.checkDeliveryDedup m.dedupKey).wp (recording Tolerable)
      (Always (MayConsume b))
      (either (fun isNew t' => Attempting b rows t₀ m t' ∧
        (isNew = true → opened m.messageId m.dedupKey t' = true)) fun _ _ => False) t := by
  rw [DeliveryDeduplicationService.checkDeliveryDedup, wp_tryCatch, wp_bind, RedisClient.wp_exists]
  intro r _
  refine Attempting.and (h.cons trivial trivial) fun h => ?_
  cases r with
  | error e => exact ⟨h, fun _ => by simp [opened, closes, misses]⟩
  | ok n =>
      rw [either_ok, wp_ite]
      refine ⟨fun _ => ⟨h, fun hnew => absurd hnew (by decide)⟩, fun hn => ?_⟩
      rw [wp_bind, RedisClient.wp_setNX]
      intro r _
      refine Attempting.and (h.cons trivial trivial) fun h => ?_
      cases r with
      | error e => exact ⟨h, fun _ => by simp [opened, closes, misses, hn]⟩
      | ok isSet => exact ⟨h, fun _ => by simp [opened, closes, misses, hn]⟩

theorem wp_alreadyDelivered (h : Attempting b rows t₀ m t) :
    (DeliveryProcessorService.alreadyDelivered interfaceRepository m).wp (recording Tolerable)
      (Always (MayConsume b))
      (either (fun delivered t' => Attempting b rows t₀ m t' ∧
        (delivered = false → opened m.messageId m.dedupKey t' = true) ∧
        (delivered = true → t'.any (hits m.messageId) = true ∧ (known m.messageId t').2 = true))
        fun _ => Attempted b rows t₀ m) t := by
  rw [DeliveryProcessorService.alreadyDelivered, wp_bind]
  apply mono_post (wp_checkDeliveryDedup h)
  intro o t' h
  cases o with
  | error e => exact h.elim
  | ok isNew =>
      obtain ⟨h, hnew⟩ := h
      rw [either_ok, wp_ite]
      refine ⟨fun hisNew => ⟨h, fun _ => hnew hisNew, fun hd => absurd hd (by decide)⟩,
        fun _ => ?_⟩
      rw [wp_bind, InterfaceRepository.wp_getStatus]
      intro r _
      refine Attempting.and (h.cons trivial rfl) fun h => ?_
      cases r with
      | error e => exact ⟨h, .inr (by simp [unread])⟩
      | ok status =>
          refine ⟨h, fun hmiss => ?_, fun hhit => ⟨?_, ?_⟩⟩
          · simp [opened, closes, misses, hmiss]
          · simp [hits, hhit]
          · simp [known, learns, hhit]

/-- A Kafka record more or less changes nothing about a message. -/
theorem wp_produce_finished {topic : String} {key : Option Json} {value : Json}
    {headers : List (String × String)} (h : Finished b rows t₀ m t) :
    (produce topic key value headers).wp (recording Tolerable) (Always (MayConsume b))
      (fun _ => Finished b rows t₀ m) t := by
  rw [wp_produce]
  intro r _
  refine Finished.and ⟨h.toAttempting.cons trivial trivial, h.concluded.cons fun _ => rfl, ?_⟩ id
  exact h.reached.imp (fun h => h.mono (List.suffix_cons _ _))
    (any_of_suffix (List.suffix_cons _ _))

/-- Go on after an event that changes nothing about a message, whether it throws or not. -/
theorem wp_produce_bind {α : Type} {topic : String} {key : Option Json} {value : Json}
    {headers : List (String × String)} {rest : Unit → Prog α} (h : Finished b rows t₀ m t)
    (hrest : ∀ a t, Finished b rows t₀ m t → (rest a).wp (recording Tolerable)
      (Always (MayConsume b)) (fun _ => Finished b rows t₀ m) t) :
    (produce topic key value headers >>= rest).wp (recording Tolerable) (Always (MayConsume b))
      (fun _ => Finished b rows t₀ m) t := by
  rw [wp_bind]
  apply mono_post (wp_produce_finished h)
  intro o t' h
  cases o with
  | error e => exact h
  | ok a => exact hrest a t' h

theorem wp_publishLog (h : Attempted b rows t₀ m t) (concluded : Concluded m.messageId t)
    {log : Json} : (EventPublisherService.publishLog log).wp (recording Tolerable)
      (Always (MayConsume b))
      (either (fun _ => Finished b rows t₀ m) fun _ => Attempted b rows t₀ m) t := by
  rw [EventPublisherService.publishLog, wp_produce]
  intro r _
  refine Attempted.and (h.cons trivial trivial) fun h => ?_
  cases r with
  | error e => exact h
  | ok _ => exact h.finish (concluded.cons fun _ => rfl)

theorem wp_recordSuccess (h : Attempted b rows t₀ m t) (currentAttempt : Int)
    (result : ProviderResult) :
    (DeliveryProcessorService.recordSuccess interfaceRepository m currentAttempt result).wp
      (recording Tolerable) (Always (MayConsume b))
      (either (fun _ => Finished b rows t₀ m) fun _ => Attempted b rows t₀ m) t := by
  rw [DeliveryProcessorService.recordSuccess, wp_bind, InterfaceRepository.wp_updateStatus]
  intro r _
  refine Attempted.and (h.cons ⟨m, rfl, h.toReady, h.tried⟩ rfl) fun h => ?_
  cases r with
  | error e => exact h
  | ok _ =>
      rw [either_ok, wp_bind, wp_stringify]
      have concluded : Concluded m.messageId (⟨.repository (.updateStatus m.messageId .sent true
          currentAttempt), .ok ()⟩ :: t) := .inl (by simp [known, learns])
      intro r _
      refine Attempted.and (h.cons trivial trivial) fun h => ?_
      cases r with
      | error e => exact h
      | ok providerResponse =>
          rw [either_ok, wp_bind, InterfaceRepository.wp_saveAttempt]
          have concluded : Concluded m.messageId
              (⟨.stringify result.response, .ok providerResponse⟩ :: _ :: t) :=
            concluded.cons fun _ => rfl
          intro r _
          refine Attempted.and (h.cons trivial trivial) fun h => ?_
          cases r with
          | error e => exact h
          | ok _ =>
              rw [either_ok, wp_bind, DeliveryDeduplicationService.setDeliveredCache, wp_tryCatch,
                RedisClient.wp_setEx]
              intro r _
              refine Attempted.and (h.cons trivial trivial) fun h => ?_
              cases r with
              | error e => exact wp_publishLog h ((concluded.cons fun _ => rfl).cons fun _ => rfl)
              | ok _ => exact wp_publishLog h ((concluded.cons fun _ => rfl).cons fun _ => rfl)

theorem wp_handleMaxAttemptsReached (h : Attempted b rows t₀ m t) (attemptNumber : Int)
    (errorMsg : String) :
    (DeliveryProcessorService.handleMaxAttemptsReached interfaceRepository m attemptNumber
      errorMsg).wp (recording Tolerable) (Always (MayConsume b))
      (fun _ => Finished b rows t₀ m) t := by
  rw [DeliveryProcessorService.handleMaxAttemptsReached, wp_bind,
    InterfaceRepository.wp_updateStatus]
  intro r hr
  obtain ⟨_, rfl⟩ := exists_of_isOk hr
  refine Attempted.and (h.cons ⟨m, rfl, h.toReady, h.tried⟩ rfl) fun h => ?_
  rw [either_ok, wp_bind, InterfaceRepository.wp_saveDLQEntry]
  intro r hr
  obtain ⟨_, rfl⟩ := exists_of_isOk hr
  refine Attempted.and (h.cons trivial trivial) fun h => ?_
  rw [either_ok]
  have finished := h.finish (.inr (.inl (by simp [known, learns, buries])))
  apply wp_produce_bind finished
  intro _ t h
  apply wp_produce_bind h
  intro _ t h
  exact wp_produce_bind h fun _ t h => h

theorem wp_handleRetry (h : Attempted b rows t₀ m t) (attemptNumber : Int) (errorMsg : String) :
    (DeliveryProcessorService.handleRetry interfaceRepository m attemptNumber errorMsg).wp
      (recording Tolerable) (Always (MayConsume b)) (fun _ => Finished b rows t₀ m) t := by
  rw [DeliveryProcessorService.handleRetry, wp_bind, InterfaceRepository.wp_updateStatus]
  intro r hr
  obtain ⟨_, rfl⟩ := exists_of_isOk hr
  refine Attempted.and (h.cons ⟨m, rfl, h.toReady, h.tried⟩ rfl) fun h => ?_
  rw [either_ok, wp_bind, RetrySchedulerService.scheduleRetry, wp_bind, wp_dateNow]
  intro r hr
  obtain ⟨now, rfl⟩ := exists_of_now hr
  refine Attempted.and (h.cons trivial trivial) fun h => ?_
  have nonneg := DeliveryProcessorService.backoffDelay_nonneg attemptNumber
  have short := DeliveryProcessorService.backoffDelay_le attemptNumber
  rw [either_ok, wp_bind, wp_done, now.add nonneg short, now.toISOString_add nonneg short,
    either_ok, RedisClient.wp_zAdd]
  intro r hr
  obtain ⟨_, rfl⟩ := exists_of_isOk hr
  refine Attempted.and (h.cons trivial trivial) fun h => ?_
  rw [either_ok]
  have finished := h.finish (.inr (.inr ⟨_, List.mem_cons_self, _, _, _, rfl⟩))
  exact wp_produce_bind finished fun _ t h => h

theorem wp_handleFailure (h : Attempted b rows t₀ m t) (currentAttempt : Int) (e : JsError) :
    (DeliveryProcessorService.handleFailure interfaceRepository m currentAttempt e).wp
      (recording Tolerable) (Always (MayConsume b)) (fun _ => Finished b rows t₀ m) t := by
  rw [DeliveryProcessorService.handleFailure, wp_bind, InterfaceRepository.wp_saveAttempt]
  intro r hr
  obtain ⟨_, rfl⟩ := exists_of_isOk hr
  refine Attempted.and (h.cons trivial trivial) fun h => ?_
  rw [either_ok, wp_ite]
  exact ⟨fun _ => wp_handleMaxAttemptsReached h _ _, fun _ => wp_handleRetry h _ _⟩

theorem wp_deliver (h : Attempting b rows t₀ m t) (currentAttempt : Int) :
    (DeliveryProcessorService.deliver interfaceRepository provider m currentAttempt).wp
      (recording Tolerable) (Always (MayConsume b))
      (either (fun _ => Finished b rows t₀ m) fun _ => Attempted b rows t₀ m) t := by
  rw [DeliveryProcessorService.deliver, wp_bind]
  apply mono_post (wp_alreadyDelivered h)
  intro o t h
  cases o with
  | error e => exact h
  | ok delivered =>
      obtain ⟨h, hmiss, hhit⟩ := h
      rw [either_ok, wp_ite]
      constructor
      · intro hdelivered
        exact ⟨h, .inl (hhit hdelivered).2, .inr (hhit hdelivered).1⟩
      · intro hnot
        have isOpen := hmiss (by simpa using hnot)
        rw [wp_bind, IProvider.wp_send]
        intro r _
        refine Attempting.and (h.cons ⟨rfl, h.toReady, isOpen⟩ trivial) fun h => ?_
        have h : Attempted b rows t₀ m _ := ⟨h, .inl (by simp [sends])⟩
        cases r with
        | error e => exact h
        | ok result =>
            rw [either_ok, wp_bind]
            apply mono_post (wp_recordSuccess h _ _)
            intro o t h
            cases o with
            | error e => exact h
            | ok _ => exact h

/-- However a delivery goes, it ends with the message delivered, in the DLQ, or with a
retry. -/
theorem wp_processDelivery (h : Attempting b rows t₀ m t) :
    (DeliveryProcessorService.processDelivery interfaceRepository provider m).wp
      (recording Tolerable) (Always (MayConsume b)) (fun _ => Finished b rows t₀ m) t := by
  rw [DeliveryProcessorService.processDelivery, wp_tryCatch]
  apply mono_post (wp_deliver h _)
  intro o t h
  cases o with
  | ok result => exact h
  | error e => exact wp_handleFailure h _ e

end Deliveries

/-! ## The whole batch -/

section Batches

variable {b : Batch} {rows : List MessageRow} {e : ParsedKafkaMessage}
  {t t' : Trace Reply JsError}

/-- What has been done about an entry so far, while the batch goes on. -/
def Done (b : Batch) (rows : List MessageRow) (e : ParsedKafkaMessage)
    (t : Trace Reply JsError) : Prop :=
  Matched b e t ∨ (e ∈ fresh rows (entries b) ∧ Concluded e.asMessage.messageId t ∧
    (Tried e.asMessage t ∨ t.any (hits e.asMessage.messageId) = true))

theorem Done.mono (h : Done b rows e t) (suffix : t <:+ t')
    (concluded : ∀ messageId, Concluded messageId t → Concluded messageId t') :
    Done b rows e t' := by
  obtain h | ⟨isFresh, hc, h⟩ := h
  · exact .inl (h.mono suffix)
  · exact .inr ⟨isFresh, concluded _ hc, h.imp (fun h => h.mono suffix) (any_of_suffix suffix)⟩

theorem Done.handled (h : Done b rows e t) (delivers : Delivers b rows t) : Handled b e t :=
  h.imp_right fun h => ⟨delivers.ready e h.1, h.2⟩

/-- One message of the batch: it is skipped as a duplicate, or delivered. -/
theorem wp_processMessage (h : Delivers b rows t) {channel : String} (entry : e ∈ entries b) :
    (Worker.processMessage interfaceRepository channel
        (BatchIdempotencyService.partitionBatch rows
          ((entries b).map ParsedKafkaMessage.toCheck)).duplicateMessages e).wp
      (recording Tolerable) (Always (MayConsume b))
      (either (fun _ t' => Delivers b rows t' ∧
        (∀ messageId, Concluded messageId t → Concluded messageId t') ∧
        ((∃ provider, ProviderFactory.getProvider channel = .ok provider) → Done b rows e t'))
        fun _ _ => False) t := by
  rw [Worker.processMessage, wp_ite]
  refine ⟨fun hdup => ⟨h, fun _ hc => hc, fun _ => .inl ?_⟩, fun hnew => ?_⟩
  · obtain ⟨m, hm, hid, hsome⟩ := BatchIdempotencyService.exists_duplicate_iff.mp hdup
    obtain ⟨e', member, rfl⟩ := List.mem_map.mp hm
    obtain ⟨r, hr⟩ := Option.isSome_iff_exists.mp hsome
    obtain ⟨hrow, hkey⟩ := BatchIdempotencyService.mem_of_existingFor hr
    obtain ⟨ev, hev, hanswered⟩ := h.found r hrow
    exact ⟨ev, hev, r, hanswered, e', member, hid, hkey⟩
  · have isFresh : e ∈ fresh rows (entries b) := by
      refine mem_fresh.mpr ⟨entry, BatchIdempotencyService.existingFor_eq_none.mp ?_⟩
      by_contra hsome
      exact hnew (BatchIdempotencyService.exists_duplicate_iff.mpr
        ⟨e.toCheck, List.mem_map_of_mem entry, rfl, Option.isSome_iff_ne_none.mpr hsome⟩)
    rw [wp_tryCatch, wp_bind, wp_done]
    cases hprovider : ProviderFactory.getProvider channel with
    | error error =>
        refine ⟨h, fun _ hc => hc, ?_⟩
        rintro ⟨_, hok⟩
        cases hok
    | ok provider =>
        rw [either_ok, DeliveryController.handleMessage]
        have attempting : Attempting b rows t e.asMessage t :=
          ⟨h, ⟨e, isFresh, rfl⟩, fun _ _ hc => hc⟩
        apply mono_post (wp_processDelivery attempting)
        intro o t' h
        have concluded : ∀ messageId, Concluded messageId t → Concluded messageId t' := by
          intro messageId hc
          by_cases hid : messageId = e.asMessage.messageId
          · exact hid ▸ h.concluded
          · exact h.others messageId hid hc
        have done : Done b rows e t' := .inr ⟨isFresh, h.concluded, h.reached⟩
        cases o with
        | ok result => exact ⟨h.toDelivers, concluded, fun _ => done⟩
        | error error => exact ⟨h.toDelivers, concluded, fun _ => done⟩

/-- All messages of the batch. -/
theorem wp_processMessages (h : Delivers b rows t) {channel : String} :
    (forEach (entries b) (Worker.processMessage interfaceRepository channel
        (BatchIdempotencyService.partitionBatch rows
          ((entries b).map ParsedKafkaMessage.toCheck)).duplicateMessages)).wp
      (recording Tolerable) (Always (MayConsume b))
      (either (fun _ t' => Always (MayConsume b) t' ∧
        ((∃ provider, ProviderFactory.getProvider channel = .ok provider) →
          ∀ e ∈ entries b, Handled b e t')) fun _ _ => False) t := by
  refine wp_forEach (fun rest _ t => ∃ before, entries b = before ++ rest ∧ Delivers b rows t ∧
    ((∃ provider, ProviderFactory.getProvider channel = .ok provider) →
      ∀ e ∈ before, Done b rows e t)) ?_ ?_ ⟨[], rfl, h, fun _ _ he => absurd he List.not_mem_nil⟩
  · rintro e rest results t ⟨before, hentries, h, done⟩
    have entry : e ∈ entries b := by simp [hentries]
    apply mono_post (wp_suffix (wp_processMessage h entry))
    intro o t' h'
    obtain ⟨h', suffix⟩ := h'
    cases o with
    | error error => exact h'.elim
    | ok result =>
        obtain ⟨h', concluded, hdone⟩ := h'
        refine ⟨before ++ [e], by simp [hentries], h', fun hprovider e' he' => ?_⟩
        cases List.mem_append.mp he' with
        | inl he' => exact (done hprovider e' he').mono suffix concluded
        | inr he' =>
            rw [List.mem_singleton.mp he']
            exact hdone hprovider
  · rintro results t ⟨before, hentries, h, done⟩
    rw [List.append_nil] at hentries
    exact ⟨h.always, fun hprovider e he => (done hprovider e (hentries ▸ he)).handled h⟩

/-- Resolving the offset changes nothing about the messages. -/
theorem wp_resolveBatch {messages : List KafkaMessage} {results : List ProcessResult} {p : Prop}
    (h : Always (MayConsume b) t) (handled : p → ∀ e ∈ entries b, Handled b e t) :
    (Worker.resolveBatch messages results).wp (recording Tolerable) (Always (MayConsume b))
      (fun _ t' => p → ∀ e ∈ entries b, Handled b e t') t := by
  have cons {ev : CallEvent} {t : Trace Reply JsError} (kept : isRollback ev = false)
      (silent : answeredRows ev = []) (same : ∀ messageId k, learns messageId ev k = k)
      (handled : p → ∀ e ∈ entries b, Handled b e t) :
      p → ∀ e ∈ entries b, Handled b e (ev :: t) :=
    fun hp e he => (handled hp e he).cons kept silent (same _)
  rw [Worker.resolveBatch, wp_ite]
  refine ⟨fun _ => ?_, fun _ => handled⟩
  cases messages.getLast? with
  | none => exact handled
  | some message =>
      rw [wp_bind]
      refine wp_step_recording.mpr fun r _ => ⟨⟨trivial, h⟩, ?_⟩
      have handled : p → ∀ e ∈ entries b, Handled b e (⟨.resolveOffset message.offset, r⟩ :: t) :=
        cons rfl rfl (fun _ _ => rfl) handled
      cases r with
      | error e => exact handled
      | ok _ => exact wp_step_recording.mpr fun r _ =>
          ⟨⟨trivial, trivial, h⟩, cons rfl rfl (fun _ _ => rfl) handled⟩

/-- From the first delivery of a batch to its end. -/
theorem wp_deliverBatch (h : Delivers b rows t) (channel : String) :
    (do
      let processedResults ← forEach (entries b) (Worker.processMessage interfaceRepository
        channel (BatchIdempotencyService.partitionBatch rows
          ((entries b).map ParsedKafkaMessage.toCheck)).duplicateMessages)
      Worker.resolveBatch b.messages processedResults : Prog Unit).wp
      (recording Tolerable) (Always (MayConsume b))
      (fun _ t' => (∃ provider, ProviderFactory.getProvider channel = .ok provider) →
        ∀ e ∈ entries b, Handled b e t') t := by
  rw [wp_bind]
  apply mono_post (wp_processMessages h)
  intro o t' h
  cases o with
  | error error => exact h.elim
  | ok results => exact wp_resolveBatch h.1 h.2

/-- What a worker does with a batch, and that it has handled a well-formed batch in the end. -/
theorem wp_eachBatch : (Worker.eachBatch interfaceRepository b).wp (recording Tolerable)
    (Always (MayConsume b))
    (fun _ t => (∃ provider, ProviderFactory.getProvider (Worker.channelOf b.topic) =
      .ok provider) → (∀ e ∈ entries b, e.WellFormed) → ∀ e ∈ entries b, Handled b e t) [] := by
  rw [Worker.eachBatch, wp_tryCatch, wp_bind, wp_done]
  cases hparse : b.messages.mapM KafkaMessage.parse with
  | error error =>
      intro _ _ e he
      simp [entries, hparse] at he
  | ok parsedMessages =>
      obtain rfl : entries b = parsedMessages := by simp [entries, hparse]
      rw [either_ok, Worker.processBatch, wp_bind]
      apply mono_post wp_checkBatchIdempotency
      intro o t h
      cases o with
      | error error => exact fun _ wellFormed => absurd wellFormed h
      | ok result =>
          obtain ⟨rows, h, rfl⟩ := h
          have deliver {t : Trace Reply JsError} (h : Delivers b rows t) :=
            mono_post (wp_deliverBatch h (Worker.channelOf b.topic))
              fun o t' h' => (fun hprovider _ => h' hprovider :
                (∃ provider, ProviderFactory.getProvider (Worker.channelOf b.topic) =
                  .ok provider) → (∀ e ∈ entries b, e.WellFormed) → ∀ e ∈ entries b, Handled b e t')
          rw [either_ok, newMessages_eq]
          refine wp_ite.mpr ⟨fun _ => ?_, fun hempty => ?_⟩
          · rw [wp_bind]
            apply mono_post (wp_insertNewMessagesInProgress h)
            intro o t' h'
            cases o with
            | error error => exact fun _ wellFormed => absurd wellFormed h'
            | ok _ =>
                apply mono_post (deliver h')
                intro o t h
                cases o <;> exact h
          · have hnil : fresh rows (entries b) = [] := by
              simpa [List.length_eq_zero_iff] using hempty
            apply mono_post (deliver ⟨h.always, fun r hr => (h.answered r).mpr hr, by simp [hnil]⟩)
            intro o t h
            cases o <;> exact h

/-- A poll of the retry loop calls no provider and no repository. -/
theorem makes_pollRetries :
    Worker.pollRetries.Makes fun ev => ∀ before, MayConsume b ev before := by
  have polled : RetrySchedulerService.getPendingRetries.Makes
      fun ev => ∀ before, MayConsume b ev before := by
    refine Makes.tryCatch ?_ fun _ => trivial
    refine Makes.bind (fun _ => ⟨fun _ => trivial, trivial⟩) fun now => ?_
    refine Makes.bind (fun _ => ⟨fun _ => trivial, trivial⟩) fun items => ?_
    split
    · exact Makes.bind (fun _ => ⟨fun _ => trivial, trivial⟩) fun _ => trivial
    · trivial
  refine Makes.tryCatch (Makes.bind polled fun retries => ?_) fun _ => trivial
  refine Makes.bind (Makes.forEach fun retry _ => ?_) fun _ => trivial
  exact fun _ => ⟨fun _ => trivial, trivial⟩

theorem wp_pollRetries : Worker.pollRetries.wp (recording Tolerable) (Always (MayConsume b))
    (fun _ t => Always (MayConsume b) t) [] :=
  makes_pollRetries.wp (fun _ t may always => ⟨may t, always⟩) trivial

end Batches

end Consuming

/-! ## The jobs of the workers -/

/-- A batch of the consumer, or one call of the retry loop. -/
inductive WorkerJob where
  | batch (b : Batch)
  | poll

namespace WorkerJob

def code : WorkerJob → Prog Unit
  | batch b => Worker.eachBatch interfaceRepository b
  | poll => Worker.pollRetries

/-- The batch of a job; a poll has an empty one. -/
def toBatch : WorkerJob → Batch
  | batch b => b
  | poll => ⟨"", 0, []⟩

end WorkerJob

namespace Consuming

abbrev Workers := Pool Reply JsError Unit WorkerJob World

/-- A worker that has been started. -/
abbrev WorkerProc := Proc Reply JsError Unit WorkerJob

theorem wp_code (job : WorkerJob) : job.code.wp (recording Tolerable)
    (Always (MayConsume job.toBatch))
    (fun _ t => (∃ provider, ProviderFactory.getProvider (Worker.channelOf job.toBatch.topic) =
      .ok provider) → (∀ e ∈ entries job.toBatch, e.WellFormed) →
        ∀ e ∈ entries job.toBatch, Handled job.toBatch e t) [] := by
  cases job with
  | batch b => exact wp_eachBatch
  | poll => exact mono_post wp_pollRetries fun _ _ _ _ _ e he => absurd he List.not_mem_nil

end Consuming

/-- What the router publishes for a message. -/
def MessageToDeliver.event (m : MessageToDeliver) : Json :=
  .ofFields
    [ ("messageId", some (.string m.messageId)), ("dedupKey", some (.string m.dedupKey)),
      ("userId", some (.string m.userId)), ("tenantId", some (.string m.tenantId)),
      ("channel", some (.string m.channel)), ("recipient", some (.string m.recipient)),
      ("body", some (.string m.body)), ("traceId", m.traceId.map Json.string),
      ("attempts", some (.number m.attempt)),
      ("idempotencyKey", m.idempotencyKey.map Json.string) ]

end Notification
