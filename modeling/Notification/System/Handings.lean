import Notification.Aggregator.Effects
import Notification.Interaction.Cost
import Notification.System.Replies

/-!
# How often the providers are called

A worker calls the provider at most once for each event of its batch, and no event is in a
batch twice. So a message gets no more provider calls than its event has been handed out.
-/

namespace Notification

open Interaction Program

/-- One for a provider call for this message, nothing for any other call. -/
def callsFor (m : MessageToDeliver) : CallEvent → ℕ
  | ⟨.send _ _ _ _ message, _⟩ => if message = m then 1 else 0
  | _ => 0

/-- An event for this message whose row the schema accepts. -/
def asksFor (m : MessageToDeliver) (e : ParsedKafkaMessage) : Bool :=
  decide (e.WellFormed ∧ e.asMessage = m)

/-- A Kafka message that carries this id. -/
def KafkaMessage.named (id : String) (msg : KafkaMessage) : Bool :=
  match msg.value with
  | some (some value) => carries id value
  | _ => false

/-- The job has been handed the event with this id. -/
def ServiceJob.hands (id : String) : ServiceJob → Bool
  | .batch b => b.messages.any (KafkaMessage.named id)
  | _ => false

section Costs

variable {m : MessageToDeliver} {kind : RepositoryKind} {sha256 : String → String}

theorem free_of_bookkeeping {ev : CallEvent} (h : Bookkeeping ev) : callsFor m ev = 0 := by
  obtain ⟨call, answer⟩ := ev
  cases call with
  | send provider recipient body options message => exact h.elim
  | _ => rfl

theorem RepositoryKind.keeps (kind : RepositoryKind) : kind.repository.Keeps := by
  cases kind with
  | statements => exact keeps_deliveryRepository
  | interface => exact keeps_interfaceRepository

/-- A delivery calls the provider at most once, for its own message. -/
theorem costs_processDelivery (kind : RepositoryKind) (provider : IProvider)
    (m' : MessageToDeliver) :
    (DeliveryProcessorService.processDelivery kind.repository provider m').Costs (callsFor m)
      (if m' = m then 1 else 0) := by
  have within := kind.keeps.within
  have free {α : Type} {p : Prog α} (h : p.Makes Bookkeeping) : p.Costs (callsFor m) 0 :=
    h.costs fun _ => free_of_bookkeeping
  have delivers : (DeliveryProcessorService.deliver kind.repository provider m'
      (m'.attempt + 1)).Costs (callsFor m) (0 + ((if m' = m then 1 else 0) + 0)) := by
    apply (free (DeliveryProcessorService.makes_alreadyDelivered within m')).bind
    intro delivered
    apply Costs.ite (costs_done _ _)
    apply (costs_perform fun r => le_refl _).bind
    intro result
    exact (free (DeliveryProcessorService.makes_recordSuccess within m' _ result)).bind fun _ =>
      costs_done _ 0
  rw [Nat.zero_add, Nat.add_zero] at delivers
  exact delivers.tryCatch fun e =>
    free (DeliveryProcessorService.makes_handleFailure within m' (m'.attempt + 1) e)

/-- What a job may cost: one call for each accepted event in its batch. -/
def ServiceJob.price (m : MessageToDeliver) : ServiceJob → ℕ
  | .batch b => (Consuming.entries b).countP (asksFor m)
  | _ => 0

theorem free_of_prepare {b : Batch} {ev : CallEvent} (h : PrepareCall b ev.call) :
    callsFor m ev = 0 := by
  obtain ⟨call, answer⟩ := ev
  cases h <;> rfl

theorem costs_eachBatch (b : Batch) :
    (Worker.eachBatch kind.repository b).wp (recording Refuses)
      (fun t => spent (callsFor m) t ≤ (ServiceJob.batch b).price m) (fun _ _ => True) [] := by
  have loop : Worker.Delivers kind b
      (fun t => spent (callsFor m) t ≤ (ServiceJob.batch b).price m)
      (fun rest t => spent (callsFor m) t + rest.countP (asksFor m) ≤
        (ServiceJob.batch b).price m) := by
    constructor
    case holds => exact fun _ _ h => (Nat.le_add_right _ _).trans h
    case prepares =>
      intro rest ev t made h
      rwa [spent_cons, free_of_prepare made, Nat.zero_add]
    case skips =>
      intro e rest t h
      rw [List.countP_cons] at h
      omega
    case delivers =>
      intro e rest t provider member wellFormed hprovider h
      have price : (asksFor m e = true) ↔ e.asMessage = m := by
        simp [asksFor, wellFormed]
      rw [List.countP_cons, if_congr price rfl rfl] at h
      have room : spent (callsFor m) t + (if e.asMessage = m then 1 else 0) ≤
          (ServiceJob.batch b).price m - rest.countP (asksFor m) := by
        omega
      apply mono_wp ((costs_processDelivery kind provider e.asMessage).wp room)
      · intro t' ht
        exact ht.trans (Nat.sub_le _ _)
      · intro o t' ht
        omega
  exact loop.eachBatch (Nat.zero_add _).le

/-- No job calls the providers more often for a message than it has events for it. -/
theorem costs_code (job : ServiceJob) : (job.code kind sha256).wp (recording Honest)
    (fun t => spent (callsFor m) t ≤ job.price m) (fun _ _ => True) [] := by
  cases job with
  | batch b =>
      rw [ServiceJob.code, wp_bind]
      apply mono_post ((costs_eachBatch b).restrict fun _ (h : Honest _) => h.refuses)
      intro o t _
      cases o <;> trivial
  | request r =>
      apply mono_wp (Services.calls_code (.request r)) ?_ fun _ _ _ => trivial
      refine fun t made => (made.spent ?_).le
      rintro ⟨call, answer⟩ before h
      cases h <;> rfl
  | poll =>
      apply mono_wp (Services.calls_code .poll) ?_ fun _ _ _ => trivial
      refine fun t made => (made.spent ?_).le
      rintro ⟨call, answer⟩ before h
      cases h <;> rfl

end Costs

/-! ## Events in a batch -/

section Batches

variable {m : MessageToDeliver} {w w' : World} {b : Batch} {id : String}

theorem fields_of_parseEvent {value : Json} {e : ParsedKafkaMessage}
    (h : parseEvent value = .ok e) :
    e.messageId = value.boundField "messageId" ∧ e.tenantId = value.boundField "tenantId" := by
  cases value with
  | object fields => cases h; exact ⟨rfl, rfl⟩
  | array items => cases h; exact ⟨rfl, rfl⟩
  | _ => cases h

/-- An accepted event for a message is read from a Kafka message with its id. -/
theorem named_of_asksFor {msg : KafkaMessage} {e : ParsedKafkaMessage}
    (hparse : msg.parse = .ok e) (h : asksFor m e = true) : msg.named m.messageId = true := by
  obtain ⟨wellFormed, rfl⟩ := of_decide_eq_true h
  obtain ⟨_, _, -, -, hid, htenant, -⟩ := Consuming.ident_of_wellFormed wellFormed
  obtain ⟨offset, value⟩ := msg
  obtain - | - | value := value
  · cases hparse
    cases hid
  · cases hparse
  · obtain ⟨hid', htenant'⟩ := fields_of_parseEvent hparse
    rw [hid'] at hid
    rw [htenant', Json.boundField, Option.bind_eq_some_iff] at htenant
    obtain ⟨tenant, hget, -⟩ := htenant
    change carries _ value = true
    rw [carries, hid, hget]
    simp

theorem countP_entries : (Consuming.entries b).countP (asksFor m) ≤
    b.messages.countP (KafkaMessage.named m.messageId) := by
  have parsed (messages : List KafkaMessage) (es : List ParsedKafkaMessage)
      (h : messages.mapM KafkaMessage.parse = .ok es) :
      es.countP (asksFor m) ≤ messages.countP (KafkaMessage.named m.messageId) := by
    induction messages generalizing es with
    | nil =>
        cases h
        exact le_rfl
    | cons msg rest ih =>
        rw [List.mapM_cons] at h
        cases hparse : msg.parse with
        | error e => rw [hparse] at h; cases h
        | ok e =>
            cases hrest : rest.mapM KafkaMessage.parse with
            | error e => rw [hparse, hrest] at h; cases h
            | ok es' =>
                rw [hparse, hrest] at h
                cases h
                have hles := ih es' hrest
                rw [List.countP_cons, List.countP_cons]
                cases hasks : asksFor m e with
                | false => simpa using hles.trans (Nat.le_add_right _ _)
                | true => simpa [named_of_asksFor hparse hasks] using hles
  rw [Consuming.entries]
  split
  · next es hes => exact parsed b.messages es hes
  · exact Nat.zero_le _

/-- A batch holds what is on its topic. -/
theorem copies_of_offers (offers : w.Offers b) (id : String) :
    b.messages.countP (KafkaMessage.named id) ≤ w.copies id := by
  obtain ⟨topic, -, lo, n, -, hmessages⟩ := offers
  have values : b.messages.countP (KafkaMessage.named id) =
      (((w.events b.topic b.partition).drop lo).take n).countP (carries id) := by
    have hmap : b.messages.map KafkaMessage.value =
        (((w.events b.topic b.partition).drop lo).take n).map fun value => some (some value) := by
      rw [hmessages, World.fetch]
      apply List.ext_getElem?
      intro i
      rw [List.getElem?_map, List.getElem?_mapIdx, List.getElem?_map, Option.map_map]
      rfl
    let carried : Option (Option Json) → Bool
      | some (some value) => carries id value
      | _ => false
    have hcount := congrArg (List.countP carried) hmap
    rw [List.countP_map, List.countP_map] at hcount
    exact hcount
  have htopic : Ingress.messageTopic b.topic = true := by
    simp only [topics, List.mem_cons, List.not_mem_nil, or_false] at topic
    rcases topic with h | h | h <;> rw [h] <;> decide
  rw [values]
  apply (((List.take_sublist _ _).trans (List.drop_sublist _ _)).countP_le).trans
  rw [World.events, List.countP_map, List.countP_filter, World.copies]
  apply List.countP_mono_left
  intro x _ hx
  simp only [Function.comp, Bool.and_eq_true, beq_iff_eq] at hx
  rw [hx.2.1, htopic, hx.1]
  rfl

theorem copies_mono (log : w.log <+: w'.log) : w.copies id ≤ w'.copies id :=
  log.sublist.countP_le

end Batches

/-! ## Runs -/

namespace Services

variable {kind : RepositoryKind} {sha256 : String → String} {uuid : ℕ → String} {init : World}
  {allowed : Services → Action Reply JsError ServiceJob → Prop} {s s' : Services}
  {a : Action Reply JsError ServiceJob}

/-- No batch holds an event more often than it is on the topics. -/
theorem copies_of_batch (run : (services kind sha256 uuid).Run allowed init s) (id : String) :
    ∀ (pid : ℕ) (proc : ServiceProc) (b : Batch), s.procs[pid]? = some proc →
      proc.job = .batch b → b.messages.countP (KafkaMessage.named id) ≤ s.shared.copies id := by
  apply run.invariant
  · intro pid proc b hproc _
    simp [Pool.initial] at hproc
  · intro s a s' _ h step _ pid proc' b hproc' hjob
    have log := log_of_step step
    obtain hold | ⟨job, -, -, -, starts, rfl⟩ | ⟨proc, c, next, r, -, hproc, -, -, -, rfl⟩ |
      ⟨proc, -, hproc, -, rfl⟩ := step.proc_cases hproc'
    · exact (h pid proc' b hold hjob).trans (copies_mono log)
    · obtain rfl : job = .batch b := hjob
      exact (copies_of_offers starts id).trans (copies_mono log)
    · exact (h pid proc b hproc hjob).trans (copies_mono log)
    · exact (h pid proc b hproc hjob).trans (copies_mono log)

/-- The inbox has cost what has been spent on it. -/
theorem countP_inbox (run : (services kind sha256 uuid).Run allowed init s) (fresh : init.Fresh)
    (m : MessageToDeliver) : s.shared.inbox.countP (fun x => x.message == m) =
      spent (callsFor m) (s.history.map Prod.snd) := by
  have counted (t : Trace Reply JsError) :
      (t.filterMap sending?).countP (fun x => x.message == m) = spent (callsFor m) t := by
    induction t with
    | nil => rfl
    | cons ev t ih =>
        obtain ⟨call, outcome⟩ := ev
        rw [spent_cons, ← ih, List.filterMap_cons]
        cases call with
        | send provider recipient body options message =>
            simp [sending?, callsFor, List.countP_cons, Nat.add_comm]
        | _ => exact (Nat.zero_add _).symm
  rw [inbox_eq run fresh, counted, spent_perm (List.reverse_perm _)]

/-- Each provider call for a message of a client is due to a batch of its own: a message gets no
more calls than batches with its event have been handed out. -/
theorem calls_at_most_handings (run : (services kind sha256 uuid).Run allowed init s)
    (fresh : init.Fresh) (injective : Function.Injective uuid) :
    ∀ o, Asked s o → s.shared.inbox.countP (fun x => x.message.messageId == o.messageId) ≤
      s.procs.countP fun proc => proc.job.hands o.messageId := by
  intro o asked
  have origins := traceable run fresh
  have same : s.shared.inbox.countP (fun x => x.message.messageId == o.messageId) ≤
      s.shared.inbox.countP fun x => x.message == o.message sha256 := by
    apply List.countP_mono_left
    intro x hx hid
    obtain ⟨o', published, sent⟩ := origins.inbox x hx
    rw [sent.message, beq_iff_eq, Origin.message_messageId] at hid
    rw [asked.eq_of_drawn (origins.requested o' published).asked (numbered run injective)
      run.coherent (.inl hid.symm), sent.message]
    exact beq_self_eq_true _
  apply same.trans
  rw [countP_inbox run fresh]
  apply (run.spent_le (fun _ _ _ _ => honest_of_answers) fun job => costs_code job).trans
  have price (proc : ServiceProc) (member : proc ∈ s.procs) :
      proc.job.price (o.message sha256) ≤ if proc.job.hands o.messageId then 1 else 0 := by
    obtain ⟨pid, hproc⟩ := List.mem_iff_getElem?.mp member
    cases hjob : proc.job with
    | batch b =>
        have entries : (ServiceJob.batch b).price (o.message sha256) ≤
            b.messages.countP (KafkaMessage.named o.messageId) := countP_entries
        split
        · exact entries.trans ((copies_of_batch run _ pid proc b hproc hjob).trans
            (copies_le_one run fresh injective asked))
        · next hnone =>
            have none : b.messages.countP (KafkaMessage.named o.messageId) = 0 := by
              refine List.countP_eq_zero.mpr fun msg hmsg named => hnone ?_
              exact List.any_eq_true.mpr ⟨msg, hmsg, named⟩
            exact none ▸ entries
    | _ => exact Nat.zero_le _
  apply (List.sum_le_sum price).trans
  rw [List.sum_map_ite, List.countP_eq_length_filter]
  simp

end Services

/-- The order is handed out once, and its provider is called once. -/
theorem calls_at_most_handings_order :
    (∀ o, Asked (orderTried .interface unreachable) o →
      (orderTried .interface unreachable).shared.inbox.countP
          (fun x => x.message.messageId == o.messageId) ≤
        (orderTried .interface unreachable).procs.countP
          fun proc => proc.job.hands o.messageId) ∧
    (orderTried .interface unreachable).shared.inbox.map (fun x => x.message.messageId) = ["1"] ∧
    (orderTried .interface unreachable).procs.countP (fun proc => proc.job.hands "1") = 1 :=
  ⟨Services.calls_at_most_handings (run_orderTried .interface unreachable) World.fresh_empty
    repr_injective, by decide, by decide⟩

end Notification
