import Notification.System.Genuine

/-!
# Where everything in the system comes from

Starting with nothing, each row, each provider call, each recorded attempt and each retry goes
back to one request that a client has made and the router has validated. An event that the
retry loop publishes has no tenant and no content; the schema refuses its row, so nothing is
ever stored or sent for it. What is delivered is delivered as the first attempt.
-/

namespace Notification

open Interaction Program

theorem messageTopic_of_mem {topic : String} (h : topic ∈ topics) :
    Ingress.messageTopic topic = true := by
  have all : ∀ topic ∈ topics, Ingress.messageTopic topic = true := by decide
  exact all topic h

/-- The messages of a batch are records of its topic. -/
structure Fetched (w : World) (b : Batch) : Prop where
  topic : b.topic ∈ topics
  messages : ∀ msg ∈ b.messages, ∃ x ∈ w.log, x.topic = b.topic ∧ msg.value = some (some x.value)

theorem fetched_of_offers {w : World} {b : Batch} (offers : w.Offers b) : Fetched w b := by
  obtain ⟨topic, -, lo, n, -, hmessages⟩ := offers
  refine ⟨topic, fun msg member => ?_⟩
  obtain ⟨i, hmsg⟩ := List.mem_iff_getElem?.mp member
  obtain ⟨-, value, hvalue, hevent⟩ := Consuming.slice_of_fetch hmessages i msg hmsg
  obtain ⟨x, hx, rfl⟩ := List.mem_map.mp (List.mem_of_getElem? hevent)
  rw [List.mem_filter, Bool.and_eq_true, beq_iff_eq] at hx
  exact ⟨x, hx.1, hx.2.1, hvalue⟩

theorem Fetched.mono {w w' : World} {b : Batch} (h : Fetched w b) (log : w.log <+: w'.log) :
    Fetched w' b :=
  ⟨h.topic, fun msg member => (h.messages msg member).imp fun _ hx => ⟨log.subset hx.1, hx.2⟩⟩

/-- The batch has been read from its topic. -/
structure Read (w : World) (b : Batch) : Prop where
  topic : b.topic ∈ topics
  entries : ∀ e ∈ Consuming.entries b, ∃ x ∈ w.log, x.topic = b.topic ∧ parseEvent x.value = .ok e

theorem Fetched.read {w : World} {b : Batch} (h : Fetched w b) : Read w b := by
  refine ⟨h.topic, fun e he => ?_⟩
  unfold Consuming.entries at he
  split at he
  · next es hes =>
      obtain ⟨msg, member, hparse⟩ := (Consuming.mem_of_mapM_parse hes).mp he
      obtain ⟨x, hx, htopic, hvalue⟩ := h.messages msg member
      rw [KafkaMessage.parse, hvalue] at hparse
      exact ⟨x, hx, htopic, hparse⟩
  · cases he

theorem Read.mono {w w' : World} {b : Batch} (h : Read w b) (log : w.log <+: w'.log) :
    Read w' b :=
  ⟨h.topic, fun e he => (h.entries e he).imp fun _ hx => ⟨log.subset hx.1, hx.2⟩⟩

/-- What the services have been told: the due retries are those of origins, and the caches
hold nothing but the number 1. -/
structure Heard (sha256 : String → String) (w : World) (ev : CallEvent) : Prop where
  due : ∀ min max items, ev = ⟨.redis (.zRangeByScore "retries" min max), .ok items⟩ →
    ∀ item ∈ items, ∃ o, w.Published sha256 o ∧ item = o.member
  cached : ∀ key value, ev = ⟨.redis (.get key), .ok (some value)⟩ → value = .number 1

theorem Heard.mono {sha256 : String → String} {w w' : World} {ev : CallEvent}
    (h : Heard sha256 w ev) (log : w.log <+: w'.log) : Heard sha256 w' ev := by
  refine ⟨fun min max items hev item member => ?_, h.cached⟩
  obtain ⟨o, published, hitem⟩ := h.due min max items hev item member
  exact ⟨o, published.mono log, hitem⟩

/-- A valid request has been started that has drawn the ids of the origin. -/
def Requested (s : Services) (o : Origin) : Prop :=
  ∃ (pid : ℕ) (proc : ServiceProc), s.procs[pid]? = some proc ∧
    proc.job = .request o.request ∧ o.Drawn proc.trace ∧
    MessageController.validateRequest o.request.toRequest = .ok ()

/-- A genuine world, and processes that have only seen genuine things. -/
structure Traceable (sha256 : String → String) (s : Services) : Prop
    extends Genuine sha256 s.shared where
  read : ∀ (pid : ℕ) (proc : ServiceProc) (b : Batch), s.procs[pid]? = some proc →
    proc.job = .batch b → Read s.shared b
  heard : ∀ (pid : ℕ) (proc : ServiceProc), s.procs[pid]? = some proc →
    ∀ ev ∈ proc.trace, Heard sha256 s.shared ev
  requested : ∀ o, s.shared.Published sha256 o → Requested s o

section Calls

variable {kind : RepositoryKind} {sha256 : String → String} {w : World} {b : Batch}
  {e : ParsedKafkaMessage}

/-- An event of a batch whose row is accepted is the event of an origin. -/
theorem Genuine.origin_of_wellFormed (genuine : Genuine sha256 w) (read : Read w b)
    (member : e ∈ Consuming.entries b) (wellFormed : e.WellFormed) :
    ∃ o, w.Published sha256 o ∧ Pipeline.Validated o.request ∧ e = o.event sha256 ∧
      b.topic = "messages." ++ o.request.channel := by
  obtain ⟨x, hx, htopic, hparse⟩ := read.entries e member
  have hmessage : Ingress.messageTopic x.topic = true := htopic ▸ messageTopic_of_mem read.topic
  obtain ⟨o, valid, hrecord⟩ | ⟨o, -, hvalue⟩ := genuine.events x hx hmessage
  · refine ⟨o, ⟨x.partition, hrecord ▸ hx⟩, valid, ?_, ?_⟩
    · rw [hrecord, o.parseEvent_record] at hparse
      exact (Except.ok.inj hparse).symm
    · rw [← htopic, hrecord]
      rfl
  · rw [hvalue] at hparse
    exact absurd wellFormed (not_wellFormed_of_tenantId (tenantId_of_retryMessage hparse))

theorem permitted_of_delivers {o : Origin} (published : w.Published sha256 o)
    {provider : IProvider}
    (hprovider : ProviderFactory.getProvider o.request.channel = .ok provider) {c : Call}
    (delivers : kind.Calls provider (o.message sha256) c) : Permitted sha256 w c := by
  have hsend : ∀ outcome, o.Sent sha256 ⟨provider.name, (o.message sha256).recipient,
      (o.message sha256).body, DeliveryProcessorService.sendOptions (o.message sha256)
        ((o.message sha256).attempt + 1), o.message sha256, outcome⟩ :=
    fun outcome => ⟨hprovider, rfl, rfl, rfl, rfl⟩
  have few : ¬ DeliveryProcessorService.MAX_ATTEMPTS ≤ (o.message sha256).attempt + 1 := by
    rw [o.message_attempt]
    decide
  cases kind with
  | statements =>
      cases delivers with
      | lookup => trivial
      | claim => rfl
      | send => exact ⟨o, published, hsend⟩
      | connection => trivial
      | refused statement refused => exact .inl refused
      | release => trivial
  | interface =>
      cases delivers with
      | lookup => trivial
      | claim => rfl
      | cache => rfl
      | status => trivial
      | send => exact ⟨o, published, hsend⟩
      | print response => trivial
      | succeeded response => exact ⟨o, published, rfl, rfl⟩
      | failed error => exact ⟨o, published, rfl, rfl⟩
      | sent => exact Origin.Stage.sent
      | pending _ => exact Origin.Stage.failedOnce
      | exhausted h => exact absurd h few
      | clock => trivial
      | retry score _ => exact ⟨o, published, rfl⟩
      | deadLetter reason h => exact absurd h few
      | dlq reason h => exact absurd h few
      | log status text error => exact fun h => absurd h (by decide)
      | report key reason h => exact absurd h few

theorem permitted_of_batch (genuine : Genuine sha256 w) (read : Read w b) {c : Call}
    (made : BatchCall kind b c) : Permitted sha256 w c := by
  cases made with
  | prepare c prepares =>
      cases prepares with
      | control c h =>
          cases c with
          | execute statement => exact absurd rfl (h statement)
          | _ => trivial
      | select keys => exact .inr (.inl ⟨_, _, _, rfl⟩)
      | insert e member =>
          by_cases wellFormed : e.WellFormed
          · obtain ⟨o, published, valid, rfl, -⟩ :=
              genuine.origin_of_wellFormed read member wellFormed
            obtain ⟨columns, values, hinsert, hrow⟩ :=
              Pipeline.insertMessage_routed valid (o.reply sha256 .accepted)
            exact .inr (.inr ⟨columns, values, o, hinsert, published, hrow⟩)
          · exact .inl wellFormed
      | resolve offset => trivial
      | heartbeat => trivial
  | deliver e provider c member wellFormed hprovider delivers =>
      obtain ⟨o, published, valid, rfl, topic⟩ :=
        genuine.origin_of_wellFormed read member wellFormed
      rw [topic, Pipeline.channelOf_topic valid.channel] at hprovider
      exact permitted_of_delivers published hprovider delivers

theorem permitted_of_job {s : Services} (h : Traceable sha256 s) {pid : ℕ} {proc : ServiceProc}
    (hproc : s.procs[pid]? = some proc) {ev : CallEvent}
    (made : Services.JobCall kind sha256 proc.job ev proc.trace) :
    Permitted sha256 s.shared ev.call := by
  unfold Services.JobCall at made
  split at made
  · obtain ⟨call, answer⟩ := ev
    cases made with
    | publish o hrequest drawn silent valid =>
        intro _
        exact .inl ⟨o, hrequest ▸ Pipeline.validated valid, fun _ => rfl⟩
    | claim => rfl
    | accepted o spanId hrequest drawn => exact fun h => absurd h (by decide)
    | duplicate o spanId cached hrequest drawn hcached => exact fun h => absurd h (by decide)
    | failed key traceId error => exact fun h => absurd h (by decide)
    | draw => trivial
    | lookup => trivial
    | read => trivial
  · next b hjob => exact permitted_of_batch h.toGenuine (h.read pid proc b hproc hjob) made
  · obtain ⟨call, answer⟩ := ev
    cases made with
    | publish now items item key headers answered member =>
        intro _
        obtain ⟨o, published, rfl⟩ := (h.heard pid proc hproc _ answered).due _ _ _ rfl item member
        exact .inr ⟨o, published, rfl⟩
    | clock => trivial
    | due now => trivial
    | take now => trivial

end Calls

/-! ## Runs -/

namespace Services

variable {kind : RepositoryKind} {sha256 : String → String} {uuid : ℕ → String} {init : World}
  {allowed : Services → Action Reply JsError ServiceJob → Prop} {s s' : Services}
  {a : Action Reply JsError ServiceJob}

theorem Requested.step {o : Origin} (h : Requested s o)
    (step : (services kind sha256 uuid).Step s a s') : Requested s' o := by
  obtain ⟨pid, proc, hproc, hjob, drawn, valid⟩ := h
  obtain ⟨proc', hproc', hjob', htrace⟩ := step.proc_stays hproc
  refine ⟨pid, proc', hproc', hjob'.trans hjob, ?_, valid⟩
  obtain htrace | ⟨ev, -, htrace⟩ := htrace
  · rwa [htrace]
  · rw [htrace]
    exact drawn.cons ev

/-- What Redis answers in a genuine world. -/
theorem heard_of_lossy {w w' : World} {pid : ℕ} {ev : CallEvent} (genuine : Genuine sha256 w)
    (answer : w.lossy uuid pid ev w') : Heard sha256 w ev := by
  have answered {c : RedisCall} {a : c.Reply} (hev : ev = ⟨.redis c, .ok a⟩) :
      (w.redis.answer c).1 = .ok a := by
    subst hev
    obtain answer | ⟨-, ⟨e, he⟩, -⟩ := answer
    · obtain ⟨hr, -⟩ | ⟨-, e, he⟩ := World.faulty_redis answer
      · exact hr.symm
      · cases he
    · cases he
  constructor
  · intro min max items hev item member
    have hitems := Except.ok.inj (answered hev)
    rw [← hitems] at member
    obtain ⟨x, hx, rfl⟩ := List.mem_map.mp member
    exact genuine.retries x (List.mem_of_mem_filter hx)
  · intro key value hev
    have hvalue := Except.ok.inj (answered hev)
    obtain ⟨entry, hentry, rfl⟩ := Option.map_eq_some_iff.mp hvalue
    exact genuine.cached key entry (Option.filter_eq_some_iff.mp hentry).1

/-- Only requests publish message events, each its own. -/
theorem publisher {job : ServiceJob} {topic : String} {partition partition' : ℕ}
    {key : Option Json} {value : Json} {headers : List (String × String)}
    {answered : Except JsError Unit} {before : Trace Reply JsError} {o : Origin}
    (made : JobCall kind sha256 job ⟨.produce topic key value headers, answered⟩ before)
    (hrecord : o.record sha256 partition = ⟨topic, partition', key, value, headers⟩) :
    ∃ r, job = .request r ∧ ∃ o' : Origin, o'.request = r ∧ o'.Drawn before ∧
      MessageController.validateRequest r.toRequest = .ok () ∧
      o.record sha256 partition = o'.record sha256 partition := by
  have htopic : Ingress.messageTopic topic = true := by
    have heq : "messages." ++ o.request.channel = topic := congrArg Record.topic hrecord
    rw [← heq]
    exact Ingress.messageTopic_append o.request.channel
  have hvalue : value = (o.record sha256 partition).value := (congrArg Record.value hrecord).symm
  cases job with
  | request r =>
      refine ⟨r, rfl, ?_⟩
      cases made with
      | publish o' hrequest drawn silent valid =>
          refine ⟨o', hrequest, drawn, valid, ?_⟩
          have hpartition : partition = partition' := congrArg Record.partition hrecord
          rw [hrecord, hpartition]
          rfl
      | accepted o' spanId hrequest drawn => exact absurd htopic (by decide)
      | duplicate o' spanId cached hrequest drawn hcached => exact absurd htopic (by decide)
      | failed key traceId error => exact absurd htopic (by decide)
  | batch b => exact absurd htopic (by rw [silent_of_batch made]; decide)
  | poll =>
      cases made with
      | publish now items item key headers answered member =>
          have hparse : parseEvent _ = .ok (o.event sha256) :=
            hvalue ▸ o.parseEvent_record sha256 partition
          cases tenantId_of_retryMessage hparse

theorem traceable_of_step (run : (services kind sha256 uuid).Run allowed init s)
    (h : Traceable sha256 s) (step : (services kind sha256 uuid).Step s a s')
    (permitted : allowed s a) : Traceable sha256 s' := by
  have log := log_of_step step
  constructor
  case toGenuine =>
    obtain hsame | ⟨pid, ev, rfl⟩ | background := shared_cases step
    · exact hsame ▸ h.toGenuine
    · obtain ⟨proc, hproc, answer, made⟩ := turn_makes run step permitted
      exact h.toGenuine.lossy answer (permitted_of_job h hproc made)
    · exact h.toGenuine.background background
  case read =>
    intro pid proc' b hproc' hjob
    obtain hold | ⟨job, -, -, hshared, starts, rfl⟩ | ⟨proc, c, next, r, -, hproc, -, -, -, rfl⟩ |
      ⟨proc, -, hproc, -, rfl⟩ := step.proc_cases hproc'
    · exact (h.read pid proc' b hold hjob).mono log
    · obtain rfl : job = .batch b := hjob
      exact (fetched_of_offers starts).read.mono log
    · exact (h.read pid proc b hproc hjob).mono log
    · exact (h.read pid proc b hproc hjob).mono log
  case heard =>
    intro pid proc' hproc' ev member
    obtain hnil | ⟨proc, hproc, -, hsame | ⟨ev', -, answer, hcons⟩⟩ := step.trace_cases hproc'
    · rw [hnil] at member
      cases member
    · exact (h.heard pid proc hproc ev (hsame ▸ member)).mono log
    · rw [hcons] at member
      obtain rfl | member := List.mem_cons.mp member
      · exact (heard_of_lossy h.toGenuine answer.1).mono log
      · exact (h.heard pid proc hproc ev member).mono log
  case requested =>
    intro o ⟨partition, member⟩
    by_cases before : s.shared.Published sha256 o
    · exact Requested.step (h.requested o before) step
    · have grown : s'.shared.log ≠ s.shared.log := by
        intro hsame
        exact before ⟨partition, hsame ▸ member⟩
      obtain hsame | ⟨pid, ev, rfl⟩ | background := shared_cases step
      · exact absurd (hsame ▸ rfl) grown
      · obtain ⟨proc, hproc, answer, made⟩ := turn_makes run step permitted
        obtain ⟨call, answered⟩ := ev
        obtain hsame | ⟨r, answer⟩ := effect_of_lossy answer
        · exact absurd (hsame ▸ rfl) grown
        · obtain hlog | ⟨topic, partition', key, value, headers, rfl, hlog⟩ := log_of_up answer
          · exact absurd hlog grown
          · rw [hlog] at member
            obtain member | member := List.mem_append.mp member
            · exact absurd ⟨partition, member⟩ before
            · have hrecord := List.mem_singleton.mp member
              obtain ⟨r, hjob, o', hrequest, drawn, valid, hrecord'⟩ := publisher made hrecord
              obtain rfl := Origin.eq_of_record hrecord'
              subst hrequest
              exact Requested.step ⟨pid, proc, hproc, hjob, drawn, valid⟩ step
      · exact absurd background.log grown

/-- From a fresh start every state that is reached is traceable. -/
theorem traceable (run : (services kind sha256 uuid).Run allowed init s) (fresh : init.Fresh) :
    Traceable sha256 s := by
  refine run.invariant ?_ fun _ _ _ before h step permitted =>
    traceable_of_step before h step permitted
  have none (pid : ℕ) (proc : ServiceProc) :
      (Pool.initial init : Services).procs[pid]? ≠ some proc := by
    simp [Pool.initial]
  exact
    { genuine_of_fresh fresh with
      read := fun pid proc b hproc _ => absurd hproc (none pid proc)
      heard := fun pid proc hproc _ _ => absurd hproc (none pid proc)
      requested := by
        rintro o ⟨partition, member⟩
        rw [Pool.initial, fresh.log] at member
        cases member }

/-- What is stored is what a client has asked for, and so is what the providers are handed:
whatever runs at the same time, fails, crashes or is forgotten. -/
theorem all_from_requests (run : (services kind sha256 uuid).Run allowed init s)
    (fresh : init.Fresh) :
    (∀ r ∈ s.shared.db.rows, ∃ o, Requested s o ∧ s.shared.Published sha256 o ∧
      o.Stored sha256 r) ∧
    ∀ x ∈ s.shared.inbox, ∃ o, Requested s o ∧ s.shared.Published sha256 o ∧ o.Sent sha256 x := by
  have h := traceable run fresh
  constructor
  · intro r hr
    obtain ⟨o, published, stored⟩ := h.rows.rows r hr
    exact ⟨o, h.requested o published, published, stored⟩
  · intro x hx
    obtain ⟨o, published, sent⟩ := h.inbox x hx
    exact ⟨o, h.requested o published, published, sent⟩

/-- Nothing gets past its first attempt: each provider call and each recorded attempt is the
first, a retry is only ever scheduled for the second one, and since that never comes no row is
`FAILED` and nothing gets into the DLQ. -/
theorem first_attempts_only (run : (services kind sha256 uuid).Run allowed init s)
    (fresh : init.Fresh) :
    (∀ x ∈ s.shared.inbox, x.options.attemptNumber = 1) ∧
    (∀ a ∈ s.shared.db.deliveryAttempts, a.attemptNumber = 1) ∧
    (∀ x ∈ s.shared.redis.zsets "retries", ∃ o, Requested s o ∧
      x.1 = RetrySchedulerService.payload o.messageId o.request.channel 2) ∧
    (∀ r ∈ s.shared.db.rows, r.status ≠ .failed ∧ r.attemptCount ≤ 1) ∧
    s.shared.db.dlqEntries = [] := by
  have h := traceable run fresh
  refine ⟨?_, ?_, ?_, ?_, h.dlq⟩
  · intro x hx
    obtain ⟨o, -, sent⟩ := h.inbox x hx
    rw [sent.options]
    rfl
  · intro a ha
    obtain ⟨o, -, -, hnumber⟩ := h.attempts a ha
    exact hnumber
  · intro x hx
    obtain ⟨o, published, hmember⟩ := h.retries x hx
    exact ⟨o, h.requested o published, hmember⟩
  · intro r hr
    obtain ⟨o, -, status, finalDelivered, attemptCount, stage, rfl⟩ := h.rows.rows r hr
    cases stage <;> exact ⟨by simp, by simp⟩

end Services

/-! ## A request on its way -/

section Sample

/-- A job is started and takes its turns, at most `n` and none that `permit` refuses, with the
provider answering like this. -/
def Services.after (kind : RepositoryKind)
    (permit : Services → Action Reply JsError ServiceJob → Bool)
    (outcome : Except JsError ProviderResult) (job : ServiceJob) (n : ℕ) (s : Services) :
    Services :=
  Machine.turns permit (fun c w => w.answer toString s.procs.length { outcome } c)
    s.procs.length n (s.spawn job (job.code kind id))

theorem Services.run_after {kind : RepositoryKind}
    {allowed : Services → Action Reply JsError ServiceJob → Prop} {s : Services}
    {permit : Services → Action Reply JsError ServiceJob → Bool}
    (permitted : ∀ s a, permit s a = true → allowed s a) {job : ServiceJob}
    (run : (services kind id toString).Run allowed {} s)
    (starts : (services kind id toString).starts s.shared job) (start : allowed s (.start job))
    (outcome : Except JsError ProviderResult) (n : ℕ) :
    (services kind id toString).Run allowed {} (s.after kind permit outcome job n) := by
  apply Machine.Run.turns _ permitted
  · exact .next run (.start starts) start
  · exact fun _ _ _ _ answer => ⟨World.lossy_of_answer answer, refuses_of_answer answer⟩

def everything (_ : Services) (_ : Action Reply JsError ServiceJob) : Bool := true

/-- The order is served, ... -/
def orderServed (kind : RepositoryKind) : Services :=
  Services.after kind everything (.ok ⟨true, none⟩) (.request orderShipped) 20 (Pool.initial {})

/-- ... its event is handed out, ... -/
def orderBatch (kind : RepositoryKind) : Batch :=
  ⟨"messages.sms", 0, (orderServed kind).shared.fetch "messages.sms" 0 0 1⟩

/-- ... and the provider answers like this. -/
def orderTried (kind : RepositoryKind) (outcome : Except JsError ProviderResult) : Services :=
  Services.after kind everything outcome (.batch (orderBatch kind)) 40 (orderServed kind)

theorem run_orderServed (kind : RepositoryKind) :
    (services kind id toString).Run (fun _ _ => True) {} (orderServed kind) := by
  apply Services.run_after (fun _ _ _ => trivial) .initial
  · trivial
  · trivial

theorem offers_orderBatch (kind : RepositoryKind) :
    (orderServed kind).shared.Offers (orderBatch kind) := by
  have htopic : "messages.sms" ∈ topics := by decide
  refine ⟨htopic, List.ne_nil_of_length_pos ?_, 0, 1, Nat.zero_le _, rfl⟩
  have hlength : (orderBatch kind).messages.length = 1 := by
    cases kind <;> rfl
  rw [hlength]
  exact Nat.one_pos

theorem run_orderTried (kind : RepositoryKind) (outcome : Except JsError ProviderResult) :
    (services kind id toString).Run (fun _ _ => True) {} (orderTried kind outcome) := by
  apply Services.run_after (fun _ _ _ => trivial) (run_orderServed kind)
  · exact offers_orderBatch kind
  · trivial

/-- The next message of the same tenant. -/
def orderArrived : TextRequest :=
  { orderShipped with idempotencyKey := "key-2", body := "Your order has arrived" }

/-- The provider is not reached. -/
def unreachable : Except JsError ProviderResult := .error { message := "timeout" }

theorem all_from_requests_order :
    ((∀ r ∈ (orderTried .interface unreachable).shared.db.rows, ∃ o,
        Requested (orderTried .interface unreachable) o ∧
        (orderTried .interface unreachable).shared.Published id o ∧ o.Stored id r) ∧
      ∀ x ∈ (orderTried .interface unreachable).shared.inbox, ∃ o,
        Requested (orderTried .interface unreachable) o ∧
        (orderTried .interface unreachable).shared.Published id o ∧ o.Sent id x) ∧
    (orderTried .interface unreachable).shared.inbox.length = 1 :=
  ⟨Services.all_from_requests (run_orderTried .interface unreachable) World.fresh_empty,
    by decide⟩

theorem first_attempts_only_order :
    ((∀ x ∈ (orderTried .interface unreachable).shared.inbox, x.options.attemptNumber = 1) ∧
      (∀ a ∈ (orderTried .interface unreachable).shared.db.deliveryAttempts,
        a.attemptNumber = 1) ∧
      (∀ x ∈ (orderTried .interface unreachable).shared.redis.zsets "retries", ∃ o,
        Requested (orderTried .interface unreachable) o ∧
          x.1 = RetrySchedulerService.payload o.messageId o.request.channel 2) ∧
      (∀ r ∈ (orderTried .interface unreachable).shared.db.rows,
        r.status ≠ .failed ∧ r.attemptCount ≤ 1) ∧
      (orderTried .interface unreachable).shared.db.dlqEntries = []) ∧
    ((orderTried .interface unreachable).shared.redis.zsets "retries").map Prod.fst =
      ["1:sms:2"] :=
  ⟨Services.first_attempts_only (run_orderTried .interface unreachable) World.fresh_empty,
    by decide⟩

end Sample

end Notification
