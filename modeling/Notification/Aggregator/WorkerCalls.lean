import Notification.Aggregator.Footprint

/-!
# The calls of the worker's handlers

A batch looks its keys up, inserts rows of its events and delivers events of its own, none of
them before its row is one that the schema accepts. A poll publishes what Redis has handed
out.
-/

namespace Notification

open Interaction Program

/-- What the worker calls for a batch besides its deliveries. -/
inductive PrepareCall (b : Batch) : Call → Prop
  | control (c : SqlCall) : (∀ statement, c ≠ .execute statement) → PrepareCall b (.sql c)
  | select (keys : List (Option String × Option String)) :
      PrepareCall b (.sql (.execute (BatchIdempotencyService.selectExisting keys)))
  | insert (e : ParsedKafkaMessage) : e ∈ Consuming.entries b →
      PrepareCall b (.sql (.execute (BatchIdempotencyService.insertMessage e.toCheck)))
  | resolve (offset : ℕ) : PrepareCall b (.resolveOffset offset)
  | heartbeat : PrepareCall b .heartbeat

/-- What the worker calls for a batch. -/
inductive BatchCall (kind : RepositoryKind) (b : Batch) : Call → Prop
  | prepare (c : Call) : PrepareCall b c → BatchCall kind b c
  | deliver (e : ParsedKafkaMessage) (provider : IProvider) (c : Call) :
      e ∈ Consuming.entries b → e.WellFormed →
      ProviderFactory.getProvider (Worker.channelOf b.topic) = .ok provider →
      kind.Calls provider e.asMessage c → BatchCall kind b c

/-- What the retry loop calls, given what it has been answered before. -/
inductive PollCall (before : Trace Reply JsError) : Call → Prop
  | clock : PollCall before .now
  | due (now : Int) : PollCall before (.redis (.zRangeByScore "retries" 0 now))
  | take (now : Int) : PollCall before (.redis (.zRemRangeByScore "retries" 0 now))
  | publish (now : Int) (items : List String) (item : String) (key : Option Json)
      (headers : List (String × String)) :
      ⟨.redis (.zRangeByScore "retries" 0 now), .ok items⟩ ∈ before → item ∈ items →
      PollCall before (.produce
        ("messages." ++ (RetrySchedulerService.parseItem item).channel.getD "undefined") key
        (Worker.retryMessage (RetrySchedulerService.parseItem item)).toJson headers)

namespace BatchIdempotencyService

variable {messages : List MessageToCheckIdempotency} {t : Trace Reply JsError}

theorem mem_newMessages {rows : List MessageRow} {m : MessageToCheckIdempotency}
    (member : m ∈ (partitionBatch rows messages).newMessages) : m ∈ messages := by
  rw [partitionBatch_eq] at member
  exact List.mem_of_mem_filter member

/-- An event whose id is not among the duplicates is new. -/
theorem mem_newMessages_of_not_duplicate {rows : List MessageRow} {m : MessageToCheckIdempotency}
    (member : m ∈ messages) (fresh : ¬ ((partitionBatch rows messages).duplicateMessages.any
      fun dm => dm.messageId == m.messageId) = true) :
    m ∈ (partitionBatch rows messages).newMessages := by
  rw [partitionBatch_eq] at fresh ⊢
  apply List.mem_filter.mpr
  refine ⟨member, ?_⟩
  cases hrow : existingFor rows m.key with
  | none => rfl
  | some row =>
      exfalso
      apply fresh
      apply List.any_eq_true.mpr
      refine ⟨duplicateOf m row, List.mem_filterMap.mpr ⟨m, member, by rw [hrow]; rfl⟩, ?_⟩
      exact beq_self_eq_true m.messageId

/-- What the schema refuses undoes the transaction, so a transaction that ends well has
only been given rows that the schema accepts. -/
theorem accepted_of_inserted : (insertNewMessagesInProgress messages).wp (recording Refuses)
    (fun _ => True) (either (fun _ _ => ∀ m ∈ messages, (insertMessage m).check = none)
      fun _ _ => True) t := by
  have one (m : MessageToCheckIdempotency) (t : Trace Reply JsError) :
      (insertOne m).wp (recording Refuses) (fun _ => True)
        (either (fun _ _ => (insertMessage m).check = none) fun _ _ => True) t := by
    by_cases refused : (insertMessage m).check = none
    · apply mono_post (wp_true _ t)
      intro o _ _
      cases o with
      | error e => trivial
      | ok _ => exact refused
    · rw [insertOne, wp_tryCatch, wp_bind, Connection.wp_execute]
      intro r hr
      obtain ⟨e, rfl, hcode⟩ := hr _ r rfl refused
      refine ⟨trivial, ?_⟩
      rw [either_error, either_error, if_neg hcode]
      trivial
  have all (t : Trace Reply JsError) : (insertAll messages).wp (recording Refuses) (fun _ => True)
      (either (fun _ _ => ∀ m ∈ messages, (insertMessage m).check = none) fun _ _ => True) t := by
    rw [insertAll, wp_bind, Connection.wp_beginTransaction]
    intro r _
    refine ⟨trivial, ?_⟩
    cases r with
    | error e => trivial
    | ok _ =>
        rw [either_ok, wp_bind]
        apply wp_forEach (fun rest _ _ => ∃ before, messages = before ++ rest ∧
          ∀ m ∈ before, (insertMessage m).check = none)
        · rintro m rest _ t ⟨before, rfl, accepted⟩
          apply mono_post (one m t)
          intro o _ h
          cases o with
          | error e => trivial
          | ok _ =>
              refine ⟨before ++ [m], by simp, fun m' member => ?_⟩
              obtain member | member := List.mem_append.mp member
              · exact accepted m' member
              · rwa [List.mem_singleton.mp member]
        · rintro _ t ⟨before, hbefore, accepted⟩
          rw [List.append_nil] at hbefore
          rw [either_ok, wp_bind]
          apply mono_post (wp_true _ t)
          intro o _ _
          cases o with
          | error e => trivial
          | ok _ => exact hbefore ▸ accepted
        · exact ⟨[], rfl, by simp⟩
  rw [insertNewMessagesInProgress, wp_ite]
  constructor
  · intro hempty
    rw [List.length_eq_zero_iff.mp hempty]
    exact fun _ h => absurd h List.not_mem_nil
  · intro _
    rw [withConnection, wp_bind]
    apply mono_post (wp_true _ t)
    intro o t' _
    cases o with
    | error e => trivial
    | ok _ =>
        rw [either_ok, wp_andFinally, wp_tryCatch]
        apply mono_post (all t')
        intro o t'' h
        cases o with
        | ok _ =>
            rw [either_ok]
            apply mono_post (wp_true _ t'')
            intro o _ _
            cases o with
            | error e => trivial
            | ok _ => exact h
        | error e =>
            rw [either_error, wp_bind]
            apply mono_post (wp_true _ t'')
            intro o t₃ _
            cases o with
            | error e' =>
                apply mono_post (wp_true _ t₃)
                intro o _ _
                cases o <;> trivial
            | ok _ =>
                rw [either_ok, wp_throw]
                apply mono_post (wp_true _ t₃)
                intro o _ _
                cases o <;> trivial

theorem calls_checkBatchIdempotency {b : Batch} :
    (checkBatchIdempotency messages).Makes fun ev => PrepareCall b ev.call := by
  refine Makes.ite trivial (Makes.bind (makes_call fun _ => .control _ (by simp)) fun _ =>
    Makes.andFinally ?_ (makes_call fun _ => .control _ (by simp)))
  exact Makes.bind (Makes.ite trivial (makes_call fun _ => .select _)) fun _ => trivial

theorem calls_insertNewMessagesInProgress {b : Batch}
    (events : ∀ m ∈ messages, ∃ e ∈ Consuming.entries b, m = e.toCheck) :
    (insertNewMessagesInProgress messages).Makes fun ev => PrepareCall b ev.call := by
  apply makes_insertNewMessagesInProgress
  · exact fun c r h => .control c h
  · intro m member r
    obtain ⟨e, he, rfl⟩ := events m member
    exact .insert e he

end BatchIdempotencyService

namespace Worker

variable {kind : RepositoryKind} {b : Batch} {t : Trace Reply JsError}
  {T : Trace Reply JsError → Prop} {inv : List ParsedKafkaMessage → Trace Reply JsError → Prop}

/-- An invariant of the delivery loop: `inv rest` holds when `rest` is still to do, and only
events whose rows the schema accepts are delivered. -/
structure Delivers (kind : RepositoryKind) (b : Batch) (T : Trace Reply JsError → Prop)
    (inv : List ParsedKafkaMessage → Trace Reply JsError → Prop) : Prop where
  holds : ∀ rest t, inv rest t → T t
  prepares : ∀ rest ev t, PrepareCall b ev.call → inv rest t → inv rest (ev :: t)
  skips : ∀ e rest t, inv (e :: rest) t → inv rest t
  delivers : ∀ e rest t provider, e ∈ Consuming.entries b → e.WellFormed →
    ProviderFactory.getProvider (channelOf b.topic) = .ok provider → inv (e :: rest) t →
    (DeliveryProcessorService.processDelivery kind.repository provider e.asMessage).wp
      (recording Refuses) T (fun _ t' => inv rest t') t

theorem Delivers.prepare (loop : Delivers kind b T inv) {α : Type} {p : Prog α}
    (h : p.Makes fun ev => PrepareCall b ev.call) {rest : List ParsedKafkaMessage}
    (before : inv rest t) :
    p.wp (recording Refuses) T (fun _ t' => inv rest t') t :=
  mono_wp (h.wp (fun ev t' made => loop.prepares rest ev t' made) before) (loop.holds rest)
    fun _ _ after => after

theorem Delivers.processMessage (loop : Delivers kind b T inv)
    {duplicates : List DuplicateMessage} {e : ParsedKafkaMessage}
    {rest : List ParsedKafkaMessage} (member : e ∈ Consuming.entries b)
    (accepted : ¬ (duplicates.any fun dm => dm.messageId == e.messageId) = true → e.WellFormed)
    (before : inv (e :: rest) t) :
    (processMessage kind.repository (channelOf b.topic) duplicates e).wp (recording Refuses) T
      (either (fun _ t' => inv rest t') fun _ t' => T t') t := by
  rw [Worker.processMessage, wp_ite]
  refine ⟨fun _ => loop.skips e rest t before, fun fresh => ?_⟩
  rw [wp_tryCatch, wp_bind]
  cases hprovider : ProviderFactory.getProvider (channelOf b.topic) with
  | error _ => exact loop.skips e rest t before
  | ok provider =>
      rw [wp_done, either_ok, DeliveryController.handleMessage]
      apply mono_post (loop.delivers e rest t provider member (accepted fresh) hprovider before)
      intro o t' after
      cases o <;> exact after

/-- `processBatch` only delivers what it has found recorded or has inserted itself. -/
theorem Delivers.processBatch (loop : Delivers kind b T inv)
    (before : inv (Consuming.entries b) t) :
    (processBatch kind.repository b (Consuming.entries b)).wp (recording Refuses) T
      (fun _ t' => T t') t := by
  have deliveries {result : BatchIdempotencyResult} {rows : List MessageRow}
      (hresult : result = BatchIdempotencyService.partitionBatch rows
        ((Consuming.entries b).map ParsedKafkaMessage.toCheck))
      (accepted : ∀ m ∈ result.newMessages, (BatchIdempotencyService.insertMessage m).check = none)
      {t : Trace Reply JsError} (before : inv (Consuming.entries b) t) :
      (do
        let results ← forEach (Consuming.entries b) (Worker.processMessage kind.repository
          (channelOf b.topic) result.duplicateMessages)
        resolveBatch b.messages results).wp (recording Refuses) T (fun _ t' => T t') t := by
    rw [wp_bind]
    apply wp_forEach (fun rest _ t => (∀ e ∈ rest, e ∈ Consuming.entries b) ∧ inv rest t)
    · rintro e rest _ t ⟨events, before⟩
      have member := events e List.mem_cons_self
      have stored : ¬ (result.duplicateMessages.any fun dm => dm.messageId == e.messageId) = true →
          e.WellFormed := by
        intro fresh
        subst hresult
        exact accepted _ (BatchIdempotencyService.mem_newMessages_of_not_duplicate
          (List.mem_map_of_mem member) fresh)
      apply mono_post (loop.processMessage member stored before)
      intro o t' after
      cases o with
      | error _ => exact after
      | ok _ => exact ⟨fun e' h => events e' (List.mem_cons_of_mem _ h), after⟩
    · rintro results t ⟨-, before⟩
      rw [either_ok]
      have resolves : (resolveBatch b.messages results).Makes fun ev => PrepareCall b ev.call := by
        refine Makes.ite ?_ trivial
        cases b.messages.getLast? with
        | none => trivial
        | some last =>
            exact Makes.bind (makes_call fun _ => .resolve _) fun _ =>
              makes_call fun _ => .heartbeat
      exact mono_post (loop.prepare resolves before) fun _ t' => loop.holds [] t'
    · exact ⟨fun e h => h, before⟩
  have checks : (BatchIdempotencyService.checkBatchIdempotency
      ((Consuming.entries b).map ParsedKafkaMessage.toCheck)).Makes
        fun ev => PrepareCall b ev.call := BatchIdempotencyService.calls_checkBatchIdempotency
  rw [Worker.processBatch, wp_bind]
  apply mono_wp ((loop.prepare checks before).and
    (BatchIdempotencyService.returns_checkBatchIdempotency.wp t)) (fun _ h => h.1)
  rintro o t' ⟨before, partitioned⟩
  cases o with
  | error _ => exact loop.holds _ t' before
  | ok result =>
      obtain ⟨rows, hresult⟩ := partitioned
      rw [either_ok, wp_ite]
      constructor
      · intro _
        have inserts : (BatchIdempotencyService.insertNewMessagesInProgress
            result.newMessages).Makes fun ev => PrepareCall b ev.call := by
          apply BatchIdempotencyService.calls_insertNewMessagesInProgress
          intro m member
          rw [hresult] at member
          obtain ⟨e, he, heq⟩ := List.mem_map.mp (BatchIdempotencyService.mem_newMessages member)
          exact ⟨e, he, heq.symm⟩
        rw [wp_bind]
        apply mono_wp ((loop.prepare inserts before).and
          BatchIdempotencyService.accepted_of_inserted) (fun _ h => h.1)
        rintro o t'' ⟨before, accepted⟩
        cases o with
        | error _ => exact loop.holds _ t'' before
        | ok _ => exact deliveries hresult accepted before
      · intro hempty
        refine deliveries hresult (fun m member => ?_) before
        exact absurd (List.length_pos_of_mem member) hempty

/-- The rule for `eachBatch`, whatever the other processes do. -/
theorem Delivers.eachBatch (loop : Delivers kind b T inv) (start : inv (Consuming.entries b) []) :
    (eachBatch kind.repository b).wp (recording Refuses) T (fun _ _ => True) [] := by
  rw [Worker.eachBatch, wp_tryCatch, wp_bind]
  cases hes : b.messages.mapM KafkaMessage.parse with
  | error _ => trivial
  | ok es =>
      have hentries : Consuming.entries b = es := by rw [Consuming.entries, hes]
      rw [wp_done, either_ok, ← hentries]
      apply mono_post (loop.processBatch start)
      intro o t _
      cases o <;> trivial

/-- What a worker calls for a batch. -/
theorem calls_eachBatch (kind : RepositoryKind) (b : Batch) :
    (eachBatch kind.repository b).wp (recording Refuses)
      (Always fun ev _ => BatchCall kind b ev.call) (fun _ _ => True) [] := by
  have loop : Delivers kind b (Always fun ev _ => BatchCall kind b ev.call)
      (fun _ => Always fun ev _ => BatchCall kind b ev.call) := by
    constructor
    case holds => exact fun _ _ h => h
    case prepares => exact fun _ ev _ made h => ⟨.prepare _ made, h⟩
    case skips => exact fun _ _ _ h => h
    case delivers =>
      intro e rest t provider member wellFormed hprovider before
      exact (kind.wp_processDelivery provider e.asMessage).always_after
        (fun ev _ h => BatchCall.deliver e provider ev.call member wellFormed hprovider h) before
  exact loop.eachBatch (always_nil _)

/-- Redis has handed out a member that reads as this retry. -/
def Handed (retry : PendingRetry) (t : Trace Reply JsError) : Prop :=
  ∃ now items item, ⟨.redis (.zRangeByScore "retries" 0 now), .ok items⟩ ∈ t ∧ item ∈ items ∧
    retry = RetrySchedulerService.parseItem item

theorem Handed.cons {retry : PendingRetry} {ev : CallEvent} (h : Handed retry t) :
    Handed retry (ev :: t) := by
  obtain ⟨now, items, item, answered, member, rfl⟩ := h
  exact ⟨now, items, item, List.mem_cons_of_mem _ answered, member, rfl⟩

/-- The calls so far are those of a poll. -/
def Polling (t : Trace Reply JsError) : Prop := Always (fun ev before => PollCall before ev.call) t

theorem calls_getPendingRetries (before : Polling t) :
    RetrySchedulerService.getPendingRetries.wp (recording Refuses) Polling
      (either (fun retries t' => Polling t' ∧ ∀ retry ∈ retries, Handed retry t')
        fun _ t' => Polling t') t := by
  rw [RetrySchedulerService.getPendingRetries, wp_tryCatch, wp_bind, wp_dateNow]
  intro r _
  have clocked : Polling (⟨.now, r⟩ :: t) := ⟨.clock, before⟩
  refine ⟨clocked, ?_⟩
  cases r with
  | error e => exact ⟨clocked, by simp⟩
  | ok now =>
      rw [either_ok, wp_bind, RedisClient.wp_zRangeByScore]
      intro r _
      have asked : Polling (⟨.redis (.zRangeByScore "retries" 0 now), r⟩ :: ⟨.now, .ok now⟩ :: t) :=
        ⟨.due now, clocked⟩
      refine ⟨asked, ?_⟩
      cases r with
      | error e => exact ⟨asked, by simp⟩
      | ok items =>
          have handed : ∀ retry ∈ items.map RetrySchedulerService.parseItem, Handed retry
              (⟨.redis (.zRangeByScore "retries" 0 now), .ok items⟩ :: ⟨.now, .ok now⟩ :: t) := by
            intro retry hretry
            obtain ⟨item, member, rfl⟩ := List.mem_map.mp hretry
            exact ⟨now, items, item, List.mem_cons_self, member, rfl⟩
          rw [either_ok, wp_ite]
          refine ⟨fun _ => ?_, fun _ => ⟨asked, handed⟩⟩
          rw [wp_bind, RedisClient.wp_zRemRangeByScore]
          intro r _
          have taken : Polling (⟨.redis (.zRemRangeByScore "retries" 0 now), r⟩ ::
              ⟨.redis (.zRangeByScore "retries" 0 now), .ok items⟩ :: ⟨.now, .ok now⟩ :: t) :=
            ⟨.take now, asked⟩
          refine ⟨taken, ?_⟩
          cases r with
          | error e => exact ⟨taken, by simp⟩
          | ok _ => exact ⟨taken, fun retry hretry => (handed retry hretry).cons⟩

/-- What one call of the retry loop calls. -/
theorem calls_pollRetries :
    pollRetries.wp (recording Refuses) Polling (fun _ _ => True) [] := by
  rw [pollRetries, wp_tryCatch, wp_bind]
  apply mono_post (calls_getPendingRetries (always_nil _))
  intro o t h
  cases o with
  | error e => trivial
  | ok retries =>
      obtain ⟨polling, handed⟩ := h
      rw [either_ok, wp_bind]
      apply wp_forEach (fun rest _ t => Polling t ∧ ∀ retry ∈ rest, Handed retry t)
      · rintro retry rest _ t ⟨polling, handed⟩
        obtain ⟨now, items, item, answered, member, rfl⟩ := handed retry List.mem_cons_self
        rw [EventPublisherService.publishRetryMessage, wp_produce]
        intro r _
        have published : Polling (⟨_, r⟩ :: t) :=
          ⟨PollCall.publish now items item _ _ answered member, polling⟩
        refine ⟨published, ?_⟩
        cases r with
        | error e => trivial
        | ok _ =>
            exact ⟨published, fun retry' h => (handed retry' (List.mem_cons_of_mem _ h)).cons⟩
      · exact fun _ _ _ => trivial
      · exact ⟨polling, handed⟩

end Worker

end Notification
