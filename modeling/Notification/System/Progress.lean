import Notification.Aggregator.FreshBatch
import Notification.System.Alone
import Notification.System.Correlation

/-!
# A new request can always be served

Whatever has happened before: a request that is new to the cache and to the table can be
answered, stored and handed to its provider, if from then on nothing fails and the consumer
has caught up with the partition of its event.
-/

namespace Notification

open Interaction Program

/-! ## The request -/

/-- The origin that a request gets when nobody else draws an id meanwhile. -/
def World.nextOrigin (uuid : ℕ → String) (w : World) (r : TextRequest) : Origin where
  request := r
  traceId := uuid w.uuids
  messageId := uuid (w.uuids + 1)

section Request

variable (sha256 : String → String) (uuid : ℕ → String) (choice : Choice) {r : TextRequest}
  {w : World}

/-- With the partition known, so is the world after a new request. -/
theorem run_enqueue_eq (r : TextRequest) (traceId messageId dedupKey : String) (w : World) :
    ∃ entry, entry.topic = "logs" ∧
      (MessageController.enqueue r.toRequest traceId messageId dedupKey).run
          (World.handler uuid fun _ => choice) w =
        (.ok { messageId, dedupKey, traceId, status := .accepted },
          { w with
            log := w.log ++ [MessageController.messageRecord r traceId messageId dedupKey
              choice.partition, entry]
            uuids := w.uuids + 1 }) := by
  simp [MessageController.enqueue, MessagePublisher.publishMessageEvent,
    MessagePublisher.publishLog, MessageController.newMessage, TextRequest.toRequest,
    MessageController.messageRecord]

/-- A request whose key is not cached is accepted. -/
theorem run_createMessage_of_miss
    (valid : MessageController.validateRequest r.toRequest = .ok ())
    (miss : w.redis.live r.cacheKey = none) :
    ∃ entry, entry.topic = "logs" ∧
      (MessageController.createMessage sha256 r.toRequest).run (World.handler uuid fun _ => choice)
          w =
        (.ok { status := 202, body := .inl ((w.nextOrigin uuid r).reply sha256 .accepted) },
          { w with
            redis := w.redis.set r.cacheKey (.number 1) none
            log := w.log ++ [(w.nextOrigin uuid r).record sha256 choice.partition, entry]
            uuids := w.uuids + 3 }) := by
  obtain ⟨entry, htopic, hrun⟩ := run_enqueue_eq uuid choice r (uuid w.uuids)
    (uuid (w.uuids + 1)) (r.dedupKey sha256)
    { w with uuids := w.uuids + 1 + 1, redis := w.redis.set r.cacheKey (.number 1) none }
  refine ⟨entry, htopic, ?_⟩
  have hhandled : (MessageController.handleCreateMessage sha256 r.toRequest).run
      (World.handler uuid fun _ => choice) w =
        (MessageController.enqueue r.toRequest (uuid w.uuids) (uuid (w.uuids + 1))
          (r.dedupKey sha256)).run (World.handler uuid fun _ => choice)
          { w with
            uuids := w.uuids + 1 + 1
            redis := w.redis.set r.cacheKey (.number 1) none } := by
    simp [MessageController.handleCreateMessage, valid, DeduplicationService.run_check_of_miss,
      miss]
  rw [MessageController.createMessage, run_tryCatch, run_bind, hhandled, hrun]
  rfl

end Request

/-! ## The batch -/

theorem Database.Quiescent.afterOutcome {db : Database} (h : db.Quiescent) (m : MessageToDeliver)
    (outcome : Except JsError ProviderResult) : (db.afterOutcome m outcome).Quiescent := by
  refine ⟨(Database.afterOutcome_pending db m outcome).trans h.pending, ?_⟩
  rw [← h.inTransaction]
  cases outcome with
  | ok result => rfl
  | error e =>
      simp only [Database.afterOutcome]
      split <;> rfl

namespace Worker

variable (uuid : ℕ → String) (choice : Choice) {w : World} {b : Batch} {e : ParsedKafkaMessage}
  {provider : IProvider}

/-- A batch with one fresh event: it is stored and handed to its provider. -/
theorem run_eachBatch_of_one (quiescent : w.db.Quiescent)
    (hparse : b.messages.mapM KafkaMessage.parse = .ok [e])
    (hprovider : ProviderFactory.getProvider (channelOf b.topic) = .ok provider)
    (fresh : Fresh w [e]) :
    ∃ w', (eachBatch interfaceRepository b).run (World.handler uuid fun _ => choice) w =
        (.ok (), w') ∧
      w'.db.Quiescent ∧ w'.db.messages = w.db.messages ++ [settledRow e choice.outcome] ∧
      w'.inbox = w.inbox ++ [sending provider e.asMessage choice.outcome] := by
  have wellFormed : e.WellFormed := fresh.wellFormed e List.mem_cons_self
  have idle : (w.withRows [e.newRow]).db.pending = [] := quiescent.pending
  have absent : ∀ r ∈ w.db.messages, r.messageId ≠ e.asMessage.messageId := fun r hr =>
    (fresh.absent e List.mem_cons_self r hr).1
  obtain ⟨result, s, hrun, processed⟩ :=
    run_processMessage (fun _ => choice) (channelOf b.topic) [] uuid e idle
  have hrows : (w.withRows [e.newRow]).db.messages =
      w.db.messages ++ [e].map ParsedKafkaMessage.newRow := rfl
  have hloop : (forEach [e] (processMessage interfaceRepository (channelOf b.topic) [])).run
      (World.handler uuid fun _ => choice) (w.withRows [e.newRow]) = (.ok [result], s) := by
    simp [forEach, hrun]
  refine ⟨_, run_eachBatch_of_prepared uuid (fun _ => choice) quiescent
    (prepared_of_fresh hparse fresh), ?_⟩
  rw [storedEvents_of_fresh fresh, duplicatesOf_of_fresh fresh, deliverAll, run_bind,
    List.map_cons, List.map_nil, hloop, andThen_ok, run_resolveBatch_up]
  cases processed with
  | skipped h => exact absurd h (not_skipped_nil e)
  | unknown _ h => exact absurd hprovider (h provider)
  | blocked _ _ h => exact absurd h (not_blocked_of_newRow hrows absent)
  | @tried provider' outcome _ _ hprovider' _ houtcome leaves =>
      obtain rfl : provider = provider' := Except.ok.inj (hprovider.symm.trans hprovider')
      obtain ⟨_, rfl⟩ := houtcome
      refine ⟨?_, leaves.messages wellFormed rfl (by simpa using absent), leaves.inbox⟩
      have settled : (w.withRows [e.newRow]).db.Quiescent := ⟨idle, quiescent.inTransaction⟩
      exact leaves.db ▸ settled.afterOutcome e.asMessage choice.outcome

end Worker

/-! ## New ids -/

namespace Services

variable {kind : RepositoryKind} {sha256 : String → String} {uuid : ℕ → String} {init : World}
  {allowed : Services → Action Reply JsError ServiceJob → Prop} {s : Services}

/-- An id that has been drawn is none of those that are still to be drawn. -/
theorem messageId_ne_next (run : (services kind sha256 uuid).Run allowed init s)
    (injective : Function.Injective uuid) {o : Origin} (asked : Asked s o) {n : ℕ}
    (next : s.shared.uuids ≤ n) : o.messageId ≠ uuid n := by
  obtain ⟨pid, proc, hproc, -, drawn⟩ := asked
  have hdrawn := drawn.mem.1
  rw [← run.coherent.traces pid proc hproc] at hdrawn
  obtain ⟨k, hk, hid⟩ := (numbered run injective).old _ (mem_drawnBy hdrawn)
  intro same
  have hkn : k = n := injective (hid.symm.trans same)
  omega

theorem pair_message {o : Origin} (valid : Pipeline.Validated o.request)
    (wellFormed : (o.event sha256).WellFormed) : (o.message sha256).pair = o.request.pair := by
  obtain ⟨-, -, -, -, -, -, hkey⟩ := Consuming.ident_of_wellFormed wellFormed
  have hrouted : (o.event sha256).effectiveKey = some o.request.idempotencyKey :=
    Pipeline.effectiveKey_routed valid
  rw [hrouted] at hkey
  rw [MessageToDeliver.pair, TextRequest.pair, Option.some.inj hkey]
  rfl

/-- What the table and the retries hold of a request that is new to the table. -/
theorem fresh_of_new (run : (services kind sha256 uuid).Run allowed init s) (fresh : init.Fresh)
    (injective : Function.Injective uuid) {o : Origin} {n : ℕ} (hid : o.messageId = uuid n)
    (next : s.shared.uuids ≤ n) (wellFormed : (o.event sha256).WellFormed)
    (valid : Pipeline.Validated o.request)
    (absent : ∀ x ∈ s.shared.db.messages, x.pair ≠ o.request.pair ∧
      x.dedupKey ≠ o.request.dedupKey sha256) : Fresh s.shared [o.event sha256] := by
  have origins := traceable run fresh
  have old {o' : Origin} (published : s.shared.Published sha256 o') :
      o'.messageId ≠ o.messageId :=
    hid ▸ messageId_ne_next run injective (origins.requested o' published).asked next
  refine ⟨by simpa using wellFormed, List.nodup_singleton _, List.nodup_singleton _,
    List.nodup_singleton _, ?_, ?_⟩
  · intro e he x hx
    obtain rfl := List.mem_singleton.mp he
    obtain ⟨o', published, _, _, _, _, rfl⟩ :=
      origins.rows.rows x (Database.mem_rows.mpr (.inl hx))
    exact ⟨old published, (pair_message valid wellFormed).symm ▸ absent _ hx⟩
  · intro e he x hx retry
    obtain rfl := List.mem_singleton.mp he
    obtain ⟨o', published, hx⟩ := origins.retries x hx
    have retry' : RetryOf (o'.message sha256) x.1 := ⟨2, hx⟩
    have hchannels : ∀ channel ∈ channels, NoColon channel := by decide
    obtain ⟨_, _, _, _, _, valid⟩ := origins.requested o' published
    exact old published (retry'.messageId retry (hchannels _ (Pipeline.validated valid).channel)
      (noColon_channel wellFormed))

/-! ## From the request to the provider -/

/-- The consumer has committed everything there is in the partition. -/
def CaughtUp (w : World) (topic : String) (partition : ℕ) : Prop :=
  (w.events topic partition).length ≤ w.committed topic partition

/-- What Kafka hands out when the event of the origin is the next one of its partition. -/
def nextBatch (sha256 : String → String) (w : World) (o : Origin) (partition : ℕ) : Batch where
  topic := "messages." ++ o.request.channel
  partition := partition
  messages := [⟨(w.events ("messages." ++ o.request.channel) partition).length,
    some (some (o.record sha256 partition).value)⟩]

theorem parse_nextBatch (w : World) (o : Origin) (partition : ℕ) :
    (nextBatch sha256 w o partition).messages.mapM KafkaMessage.parse =
      .ok [o.event sha256] := by
  have hparse (offset : ℕ) : KafkaMessage.parse
      ⟨offset, some (some (o.record sha256 partition).value)⟩ = .ok (o.event sha256) :=
    o.parseEvent_record sha256 partition
  rw [nextBatch, List.mapM_cons, hparse]
  rfl

theorem offers_nextBatch {w w' : World} {o : Origin} {partition : ℕ} {entry : Record}
    (hchannel : o.request.channel ∈ channels) (htopic : entry.topic = "logs")
    (hlog : w'.log = w.log ++ [o.record sha256 partition, entry])
    (hcommitted : w'.committed = w.committed)
    (caughtUp : CaughtUp w ("messages." ++ o.request.channel) partition) :
    w'.Offers (nextBatch sha256 w o partition) := by
  have hmember : "messages." ++ o.request.channel ∈ topics := by
    simp only [channels, List.mem_cons, List.not_mem_nil, or_false] at hchannel
    rcases hchannel with h | h | h <;> rw [h] <;> decide
  have hother : "logs" ≠ "messages." ++ o.request.channel := by
    rintro h
    rw [← h] at hmember
    exact absurd hmember (by decide)
  have hrecord : ((o.record sha256 partition).topic == "messages." ++ o.request.channel &&
      (o.record sha256 partition).partition == partition) = true := by
    rw [Bool.and_eq_true, beq_iff_eq, beq_iff_eq]
    exact ⟨rfl, rfl⟩
  have hevents : w'.events ("messages." ++ o.request.channel) partition =
      w.events ("messages." ++ o.request.channel) partition ++
        [(o.record sha256 partition).value] := by
    simp [World.events, hlog, List.filter_append, hrecord, htopic, hother]
  have hnext : (w.events ("messages." ++ o.request.channel) partition).length ≤
      w'.committed ("messages." ++ o.request.channel) partition := by
    rw [hcommitted]
    exact caughtUp
  refine ⟨hmember, List.cons_ne_nil _ _, _, 1, hnext, ?_⟩
  rw [World.fetch, nextBatch, hevents, List.drop_left]
  rfl

/-- The row of an origin that has been delivered at once. -/
theorem settledRow_event {o : Origin} (validated : Pipeline.Validated o.request)
    (result : ProviderResult) : settledRow (o.event sha256) (.ok result) =
      { o.row sha256 with status := .sent, finalDelivered := true, attemptCount := 1 } := by
  have hrow : (o.event sha256).newRow = o.row sha256 := by
    have hkey : (o.request.routed (o.reply sha256 .accepted)).effectiveKey =
        some o.request.idempotencyKey := Pipeline.effectiveKey_routed validated
    simp only [ParsedKafkaMessage.newRow, Origin.event, hkey]
    rfl
  rw [settledRow, hrow]
  rfl

/-- A new request can be served by itself. -/
theorem reaches_served (quiescent : s.shared.db.Quiescent) {r : TextRequest}
    (valid : MessageController.validateRequest r.toRequest = .ok ())
    (miss : s.shared.redis.live r.cacheKey = none) (choice : Choice) :
    ∃ s' entry, (services kind sha256 uuid).Reaches (fun _ _ => True) s s' ∧
      entry.topic = "logs" ∧
      s'.shared = { s.shared with
        redis := s.shared.redis.set r.cacheKey (.number 1) none
        log := s.shared.log ++
          [(s.shared.nextOrigin uuid r).record sha256 choice.partition, entry]
        uuids := s.shared.uuids + 3 } ∧
      Machine.Running s' s.procs.length (.request r) (.done (.ok (some
        { status := 202, body := .inl ((s.shared.nextOrigin uuid r).reply sha256 .accepted) }))) ∧
      s'.procs.length = s.procs.length + 1 := by
  obtain ⟨entry, htopic, hrun⟩ := run_createMessage_of_miss sha256 uuid choice valid miss
  have hcode : (ServiceJob.code kind sha256 (.request r)).run (World.handler uuid fun _ => choice)
      s.shared = (.ok (some
        { status := 202, body := .inl ((s.shared.nextOrigin uuid r).reply sha256 .accepted) }),
        { s.shared with
          redis := s.shared.redis.set r.cacheKey (.number 1) none
          log := s.shared.log ++
            [(s.shared.nextOrigin uuid r).record sha256 choice.partition, entry]
          uuids := s.shared.uuids + 3 }) := by
    rw [ServiceJob.code, run_bind, hrun]
    rfl
  have starts : (services kind sha256 uuid).starts s.shared (.request r) := trivial
  obtain ⟨s', reaches, shared', running, hlength, -⟩ :=
    reaches_of_run starts (fun _ => choice) hcode quiescent quiescent
  exact ⟨s', entry, reaches, htopic, shared', running, hlength⟩

/-- A batch with one fresh event can be worked off by itself. -/
theorem reaches_delivered (quiescent : s.shared.db.Quiescent) {b : Batch} {e : ParsedKafkaMessage}
    {provider : IProvider} (offers : s.shared.Offers b)
    (hparse : b.messages.mapM KafkaMessage.parse = .ok [e])
    (hprovider : ProviderFactory.getProvider (Worker.channelOf b.topic) = .ok provider)
    (fresh : Fresh s.shared [e]) (choice : Choice) :
    ∃ s', (services .interface sha256 uuid).Reaches (fun _ _ => True) s s' ∧
      s'.shared.db.messages = s.shared.db.messages ++ [settledRow e choice.outcome] ∧
      s'.shared.inbox = s.shared.inbox ++ [sending provider e.asMessage choice.outcome] ∧
      ∀ pid < s.procs.length, s'.procs[pid]? = s.procs[pid]? := by
  obtain ⟨w', hrun, quiescent', hmessages, hinbox⟩ :=
    Worker.run_eachBatch_of_one uuid choice quiescent hparse hprovider fresh
  have hcode : (ServiceJob.code .interface sha256 (.batch b)).run
      (World.handler uuid fun _ => choice) s.shared = (.ok none, w') := by
    rw [ServiceJob.code, run_bind, RepositoryKind.repository, hrun]
    rfl
  have starts : (services .interface sha256 uuid).starts s.shared (.batch b) := offers
  obtain ⟨s', reaches, rfl, -, -, others⟩ :=
    reaches_of_run starts (fun _ => choice) hcode quiescent quiescent'
  exact ⟨s', reaches, hmessages, hinbox, others⟩

/-- In whatever state the system is: a valid request that fits the table and is new to it and to
the cache can be answered with 202, stored and handed to its provider, once. -/
theorem can_serve (run : (services .interface sha256 uuid).Run allowed init s)
    (fresh : init.Fresh) (injective : Function.Injective uuid) {r : TextRequest}
    (valid : MessageController.validateRequest r.toRequest = .ok ())
    (fits : Pipeline.FitsColumns r) (idFits : (uuid (s.shared.uuids + 1)).length ≤ 36)
    (keyFits : (r.dedupKey sha256).length ≤ 128)
    (uncached : s.shared.redis.live r.cacheKey = none)
    (absent : ∀ x ∈ s.shared.db.messages, x.pair ≠ r.pair ∧ x.dedupKey ≠ r.dedupKey sha256)
    {partition : ℕ} (caughtUp : CaughtUp s.shared ("messages." ++ r.channel) partition)
    (result : ProviderResult) :
    ∃ (s' : Services) (o : Origin),
      (services .interface sha256 uuid).Reaches (fun _ _ => True) s s' ∧ o.request = r ∧
      Machine.Running s' s.procs.length (.request r)
        (.done (.ok (some { status := 202, body := .inl (o.reply sha256 .accepted) }))) ∧
      s'.shared.db.messages = s.shared.db.messages ++
        [{ o.row sha256 with status := .sent, finalDelivered := true, attemptCount := 1 }] ∧
      ∃ x, s'.shared.inbox = s.shared.inbox ++ [x] ∧ o.Sent sha256 x ∧ x.outcome = .ok result := by
  have validated := Pipeline.validated valid
  have hproviders : ∀ channel ∈ channels, ∃ provider,
      ProviderFactory.getProvider channel = .ok provider := by
    simp [channels, ProviderFactory.getProvider]
  obtain ⟨provider, hprovider⟩ := hproviders _ validated.channel
  have wellFormed : ((s.shared.nextOrigin uuid r).event sha256).WellFormed :=
    (Pipeline.wellFormed_routed validated _).mpr ⟨idFits, keyFits, fits⟩
  have known := fresh_of_new run fresh injective (o := s.shared.nextOrigin uuid r) rfl
    (Nat.le_succ _) wellFormed validated absent
  -- the open transactions are rolled back, ...
  let s₁ : Services := { s with shared := { s.shared with db := s.shared.db.settled } }
  have quiescent : s₁.shared.db.Quiescent := ⟨rfl, rfl⟩
  have reaches₁ : (services .interface sha256 uuid).Reaches (fun _ _ => True) s s₁ :=
    reaches_settled s
  -- ... the request is served, ...
  obtain ⟨s₂, entry, reaches₂, htopic, shared₂, running₂, hlength₂⟩ :=
    reaches_served quiescent valid uncached { outcome := .ok result, partition }
  -- ... and its event is handed out
  have offers : s₂.shared.Offers (nextBatch sha256 s.shared (s.shared.nextOrigin uuid r)
      partition) := by
    rw [shared₂]
    exact offers_nextBatch validated.channel htopic rfl rfl caughtUp
  have fresh₂ : Fresh s₂.shared [(s.shared.nextOrigin uuid r).event sha256] := by
    rw [shared₂]
    exact { known with }
  obtain ⟨s₃, reaches₃, hmessages, hinbox, others₃⟩ := reaches_delivered
    (shared₂ ▸ quiescent) offers (parse_nextBatch _ _ _)
    ((congrArg _ (Pipeline.channelOf_topic validated.channel)).trans hprovider) fresh₂
    { outcome := .ok result, partition }
  have hlt : s.procs.length < s₂.procs.length := by
    rw [hlength₂]
    exact Nat.lt_succ_self _
  have served : Machine.Running s₃ s.procs.length (.request r) (.done (.ok (some
      { status := 202,
        body := .inl ((s.shared.nextOrigin uuid r).reply sha256 .accepted) }))) := by
    rw [Machine.Running, others₃ _ hlt]
    exact running₂
  rw [shared₂] at hmessages hinbox
  exact ⟨s₃, s.shared.nextOrigin uuid r, reaches₁.trans (reaches₂.trans reaches₃), rfl, served,
    settledRow_event (o := s.shared.nextOrigin uuid r) validated result ▸ hmessages, _, hinbox,
    ⟨hprovider, rfl, rfl, rfl, rfl⟩, rfl⟩

end Services

/-- The provider was not reached for the first order, and is for the next one. -/
theorem can_serve_order :
    ∃ s', (services .interface id toString).Reaches (fun _ _ => True)
        (orderTried .interface unreachable) s' ∧
      s'.shared.db.messages.map (fun r => (r.body, r.status)) =
        [("Your order has shipped", .pending), ("Your order has arrived", .sent)] := by
  have caughtUp : Services.CaughtUp (orderTried .interface unreachable).shared
      ("messages." ++ orderArrived.channel) 1 := by
    unfold Services.CaughtUp
    decide
  have hbefore : (orderTried .interface unreachable).shared.db.messages.map
      (fun r => (r.body, r.status)) = [("Your order has shipped", .pending)] := by decide
  obtain ⟨s', o, reaches, hrequest, -, hmessages, -⟩ := Services.can_serve
    (run_orderTried .interface unreachable) World.fresh_empty repr_injective
    (by decide : MessageController.validateRequest orderArrived.toRequest = .ok ())
    ⟨by decide, by decide, by decide, by decide, by decide⟩ (by decide) (by decide) (by decide)
    (by decide) caughtUp ⟨true, none⟩
  refine ⟨s', reaches, ?_⟩
  have hbody : (o.row id).body = "Your order has arrived" := congrArg TextRequest.body hrequest
  rw [hmessages, List.map_append, hbefore, List.map_singleton, hbody]
  rfl

end Notification
