import Notification.Aggregator.DeliveryLoop
import Notification.Aggregator.EffectivelyOnce

/-!
# Batches of fresh messages

When nothing in a batch is known yet, each of its messages is inserted and sent once, and
what is left of it depends on the outcome of its own provider call.
-/

namespace Notification

open Interaction Program BatchIdempotencyService

/-! ## Retries of a message -/

/-- A member of `retries` that stands for the message, with some attempt. -/
def RetryOf (m : MessageToDeliver) (member : String) : Prop :=
  ∃ attempt : Int, member = RetrySchedulerService.payload m.messageId m.channel attempt

theorem retryOf_retryMember (m : MessageToDeliver) : RetryOf m (retryMember m) := ⟨_, rfl⟩

/-- Members of different messages differ. -/
theorem RetryOf.messageId {m m' : MessageToDeliver} {member : String} (h : RetryOf m member)
    (h' : RetryOf m' member) (channel : NoColon m.channel) (channel' : NoColon m'.channel) :
    m.messageId = m'.messageId := by
  obtain ⟨attempt, rfl⟩ := h
  obtain ⟨attempt', same⟩ := h'
  have hparts := (append_colon_inj (noColon_toText attempt) (noColon_toText attempt') same).1
  exact (append_colon_inj channel channel' hparts).1

/-- The schema only accepts channels without a colon. -/
theorem noColon_channel {e : ParsedKafkaMessage} (h : e.WellFormed) :
    NoColon e.asMessage.channel := by
  obtain ⟨hparams, -, -, hvalues⟩ := Statement.check_eq_none.mp h
  have hdefined : (Expr.text e.channel).isUndefined = false := by
    have hall := List.any_eq_false.mp hparams (Expr.text e.channel)
      (by simp [insertMessage, Statement.params, ParsedKafkaMessage.toCheck])
    simpa using hall
  obtain ⟨channel, hchannel⟩ := Consuming.some_of_text hdefined
  have hrefuses := hvalues ("channel", Expr.text e.channel)
    (by simp [insertMessage, Statement.writes, ParsedKafkaMessage.toCheck])
    { name := "channel", type := .enum channels, notNull := true } rfl (.string channel)
    (by rw [hchannel]; rfl)
  have member : channel ∈ channels := by
    by_contra hnot
    simp [Column.refuses, hnot] at hrefuses
  have hmessage : e.asMessage.channel = channel := by
    rw [ParsedKafkaMessage.asMessage, hchannel]
    rfl
  have hchannels : ∀ channel ∈ channels, NoColon channel := by decide
  exact hmessage ▸ hchannels channel member

/-- What `retries` holds of a message whose provider call had this outcome. -/
def RetryLeft (m : MessageToDeliver) (outcome : Except JsError ProviderResult) (w : World) : Prop :=
  if leavesRetry m outcome then
    ∃ score, ∀ x, (x ∈ w.redis.zsets "retries" ∧ RetryOf m x.1) ↔ x = (retryMember m, score)
  else ∀ x ∈ w.redis.zsets "retries", ¬ RetryOf m x.1

namespace Leaves

variable {provider : IProvider} {m m' : MessageToDeliver}
  {outcome outcome' : Except JsError ProviderResult} {w w' : World}

/-- A delivery adds at most its own retry. -/
theorem mem_retries (leaves : Leaves provider m outcome w w') {x : String × Int}
    (h : x ∈ w'.redis.zsets "retries") : RetryOf m x.1 ∨ x ∈ w.redis.zsets "retries" := by
  have hzsets := leaves.zsets
  split at hzsets
  · obtain ⟨score, hzsets⟩ := hzsets
    rw [hzsets] at h
    obtain rfl | ⟨h, -⟩ := Redis.mem_zAdd.mp h
    · exact .inl (retryOf_retryMember m)
    · exact .inr h
  · exact .inr (hzsets ▸ h)

/-- The retries of other messages stay as they are. -/
theorem mem_retries_iff (leaves : Leaves provider m outcome w w') {x : String × Int}
    (other : ¬ RetryOf m x.1) :
    x ∈ w'.redis.zsets "retries" ↔ x ∈ w.redis.zsets "retries" := by
  refine ⟨fun h => (leaves.mem_retries h).resolve_left other, fun h => ?_⟩
  have hzsets := leaves.zsets
  split at hzsets
  · obtain ⟨score, hzsets⟩ := hzsets
    rw [hzsets, Redis.mem_zAdd]
    exact .inr ⟨h, fun same => other (same ▸ retryOf_retryMember m)⟩
  · exact hzsets ▸ h

/-- A message without a retry has one afterwards exactly if it is to be tried again. -/
theorem retryLeft (leaves : Leaves provider m outcome w w')
    (unscheduled : ∀ x ∈ w.redis.zsets "retries", ¬ RetryOf m x.1) : RetryLeft m outcome w' := by
  have hzsets := leaves.zsets
  unfold RetryLeft
  split at hzsets
  · next hretry =>
    obtain ⟨score, hzsets⟩ := hzsets
    rw [if_pos hretry, hzsets]
    refine ⟨score, fun x => ⟨?_, ?_⟩⟩
    · rintro ⟨h, own⟩
      exact (Redis.mem_zAdd.mp h).resolve_right fun h => unscheduled x h.1 own
    · rintro rfl
      exact ⟨Redis.mem_zAdd.mpr (.inl rfl), retryOf_retryMember m⟩
  · next hretry =>
    rw [if_neg hretry, hzsets]
    exact unscheduled

end Leaves

/-- What is left of a message's retries does not depend on the retries of others. -/
theorem RetryLeft.congr {m : MessageToDeliver} {outcome : Except JsError ProviderResult}
    {w w' : World} (h : RetryLeft m outcome w)
    (same : ∀ x, RetryOf m x.1 →
      (x ∈ w'.redis.zsets "retries" ↔ x ∈ w.redis.zsets "retries")) : RetryLeft m outcome w' := by
  unfold RetryLeft at h ⊢
  split at h
  · next hretry =>
    obtain ⟨score, h⟩ := h
    rw [if_pos hretry]
    refine ⟨score, fun x => Iff.trans ?_ (h x)⟩
    exact and_congr_left (same x)
  · next hretry =>
    rw [if_neg hretry]
    exact fun x hx own => h x ((same x own).mp hx) own

/-! ## What a batch leaves behind -/

namespace DeliveryProcessorService

/-- The entry in `delivery_attempts` for an outcome. -/
def attemptOf (m : MessageToDeliver) : Except JsError ProviderResult → DeliveryAttempt
  | .ok result => successAttempt m (m.attempt + 1) result.response
  | .error e => failedAttempt m (m.attempt + 1) e

/-- The DLQ entry that an outcome leads to. -/
def deadLetter (m : MessageToDeliver) : Except JsError ProviderResult → Option DLQEntry
  | .ok _ => none
  | .error e =>
    if MAX_ATTEMPTS ≤ m.attempt + 1 then
      some { messageId := m.messageId, channel := m.channel, failureReason := errorMessage e,
             maxAttemptsReached := true }
    else none

end DeliveryProcessorService

open DeliveryProcessorService (attemptOf deadLetter)

namespace Database

variable (db : Database) (m : MessageToDeliver) (outcome : Except JsError ProviderResult)

theorem afterOutcome_deliveryAttempts : (db.afterOutcome m outcome).deliveryAttempts =
    db.deliveryAttempts ++ [attemptOf m outcome] := by
  cases outcome with
  | ok result => rfl
  | error e =>
      simp only [afterOutcome]
      split <;> rfl

theorem afterOutcome_dlqEntries : (db.afterOutcome m outcome).dlqEntries =
    db.dlqEntries ++ (deadLetter m outcome).toList := by
  cases outcome with
  | ok result => simp [afterOutcome, deadLetter, updateStatus]
  | error e =>
      simp only [afterOutcome, deadLetter]
      split <;> simp [updateStatus]

end Database

/-- The row of a message that was inserted and sent with this outcome. -/
def settledRow (e : ParsedKafkaMessage) (outcome : Except JsError ProviderResult) : MessageRow :=
  { e.newRow with
    status := statusAfter e.asMessage outcome
    finalDelivered := outcome.isOk
    attemptCount := e.attempt + 1 }

/-- Each message has been sent once and in order; `outcomes` are the answers of the provider,
and what is left of a message depends on its own. `rows` are the rows of other messages. -/
structure BatchDelivered (provider : IProvider) (rows : List MessageRow)
    (es : List ParsedKafkaMessage) (outcomes : List (Except JsError ProviderResult))
    (w w' : World) : Prop where
  length : outcomes.length = es.length
  inbox : w'.inbox = w.inbox ++ es.zipWith (fun e outcome => sending provider e.asMessage outcome)
    outcomes
  messages : w'.db.messages = rows ++ es.zipWith settledRow outcomes
  attempts : w'.db.deliveryAttempts = w.db.deliveryAttempts ++
    es.zipWith (fun e outcome => attemptOf e.asMessage outcome) outcomes
  dlqEntries : w'.db.dlqEntries = w.db.dlqEntries ++
    (es.zip outcomes).filterMap fun p => deadLetter p.1.asMessage p.2
  live : ∀ key, (w'.redis.live key).isSome = ((w.redis.live key).isSome || es.any fun e =>
    key == DeliveryDeduplicationService.buildDeliveryKey e.asMessage.dedupKey)
  retries : ∀ p ∈ es.zip outcomes, RetryLeft p.1.asMessage p.2 w'
  others : ∀ x, (∀ e ∈ es, ¬ RetryOf e.asMessage x.1) →
    (x ∈ w'.redis.zsets "retries" ↔ x ∈ w.redis.zsets "retries")

/-- The messages of a batch are fresh: whatever a unique key sees of them differs, and neither
a row nor a retry of one of them exists. -/
structure Fresh (w : World) (es : List ParsedKafkaMessage) : Prop where
  wellFormed : ∀ e ∈ es, e.WellFormed
  messageIds : (es.map fun e => e.asMessage.messageId).Nodup
  pairs : (es.map fun e => e.asMessage.pair).Nodup
  dedupKeys : (es.map fun e => e.asMessage.dedupKey).Nodup
  absent : ∀ e ∈ es, ∀ r ∈ w.db.messages, r.messageId ≠ e.asMessage.messageId ∧
    r.pair ≠ e.asMessage.pair ∧ r.dedupKey ≠ e.asMessage.dedupKey
  unscheduled : ∀ e ∈ es, ∀ x ∈ w.redis.zsets "retries", ¬ RetryOf e.asMessage x.1

/-- The `attempt` of an event is missing or a number of attempts, perhaps as a text. -/
def CountsAttempts : Option Json → Prop
  | none => True
  | some .null => True
  | some (.number n) => 0 ≤ n
  | some (.string text) => ∃ n : ℕ, parseInt10 text = some n
  | some _ => False

section Step

variable {provider : IProvider} {s s' : World} {rows later : List MessageRow}
  {e : ParsedKafkaMessage} {es : List ParsedKafkaMessage}
  {outcome : Except JsError ProviderResult} {outcomes : List (Except JsError ProviderResult)}

/-- A delivery settles the row of its message and leaves the others alone. -/
theorem Leaves.messages (leaves : Leaves provider e.asMessage outcome s s')
    (wellFormed : e.WellFormed) (hmessages : s.db.messages = rows ++ e.newRow :: later)
    (others : ∀ r ∈ rows ++ later, r.messageId ≠ e.asMessage.messageId) :
    s'.db.messages = rows ++ settledRow e outcome :: later := by
  have hkept (l : List MessageRow) (h : ∀ r ∈ l, r ∈ rows ++ later) :
      l.map (MessageRow.updated e.asMessage.messageId (statusAfter e.asMessage outcome)
        outcome.isOk (e.asMessage.attempt + 1)) = l := by
    conv_rhs => rw [← List.map_id l]
    exact List.map_congr_left fun r hr => MessageRow.updated_of_ne (others r (h r hr))
  have hown : MessageRow.updated e.asMessage.messageId (statusAfter e.asMessage outcome)
      outcome.isOk (e.asMessage.attempt + 1) e.newRow = settledRow e outcome :=
    if_pos (newRow_messageId wellFormed)
  rw [leaves.db, Database.afterOutcome_messages]
  change s.db.messages.map (MessageRow.updated e.asMessage.messageId
    (statusAfter e.asMessage outcome) outcome.isOk (e.asMessage.attempt + 1)) = _
  rw [hmessages, List.map_append, List.map_cons, hown,
    hkept rows fun r hr => List.mem_append_left _ hr,
    hkept later fun r hr => List.mem_append_right _ hr]

/-- The first message of the batch, and then the others. -/
theorem BatchDelivered.cons (leaves : Leaves provider e.asMessage outcome s s') {s'' : World}
    (h : BatchDelivered provider (rows ++ [settledRow e outcome]) es outcomes s' s'')
    (channels : ∀ e' ∈ e :: es, NoColon e'.asMessage.channel)
    (messageIds : ∀ e' ∈ es, e'.asMessage.messageId ≠ e.asMessage.messageId)
    (unscheduled : ∀ x ∈ s.redis.zsets "retries", ¬ RetryOf e.asMessage x.1) :
    BatchDelivered provider rows (e :: es) (outcome :: outcomes) s s'' := by
  have hchannel := channels e List.mem_cons_self
  -- no retry of this message is one of the others
  have apart {x : String × Int} (own : RetryOf e.asMessage x.1) :
      ∀ e' ∈ es, ¬ RetryOf e'.asMessage x.1 := fun e' he' h' =>
    messageIds e' he' (h'.messageId own (channels e' (List.mem_cons_of_mem _ he')) hchannel)
  refine ⟨by simp [h.length], ?_, ?_, ?_, ?_, fun key => ?_, ?_, fun x hx => ?_⟩
  · rw [h.inbox, leaves.inbox, List.append_assoc]
    rfl
  · rw [h.messages, List.append_assoc]
    rfl
  · rw [h.attempts, leaves.db, Database.afterOutcome_deliveryAttempts, List.append_assoc]
    rfl
  · rw [h.dlqEntries, leaves.db, Database.afterOutcome_dlqEntries, List.append_assoc,
      List.zip_cons_cons, List.filterMap_cons]
    cases deadLetter e.asMessage outcome <;> rfl
  · rw [h.live, leaves.live, List.any_cons, Bool.or_assoc]
  · refine List.forall_mem_cons.mpr ⟨?_, h.retries⟩
    exact (leaves.retryLeft unscheduled).congr fun x own => h.others x (apart own)
  · rw [List.forall_mem_cons] at hx
    exact (h.others x hx.2).trans (leaves.mem_retries_iff hx.1)

/-- A new row is not delivered. -/
theorem not_blocked_of_newRow (hmessages : s.db.messages = rows ++ es.map ParsedKafkaMessage.newRow)
    (absent : ∀ r ∈ rows, r.messageId ≠ e.asMessage.messageId) : ¬ Blocked s e.asMessage := by
  rintro ⟨⟨row, hrow, hdelivered⟩, -⟩
  have hid : row.messageId = e.asMessage.messageId := by simpa using List.find?_some hrow
  have member : row ∈ s.db.messages := List.mem_of_find?_eq_some hrow
  rw [hmessages, List.mem_append, List.mem_map] at member
  obtain member | ⟨e', -, rfl⟩ := member
  · exact absent row member hid
  · cases hdelivered

end Step

namespace Worker

section Loop

variable {provider : IProvider} {s : World} {rows : List MessageRow}
  {es : List ParsedKafkaMessage}

theorem not_skipped_nil (e : ParsedKafkaMessage) : ¬ Skipped [] e := Bool.false_ne_true

/-- Every message of the loop is tried once. -/
theorem run_deliverFresh (uuid : ℕ → String) (choose : World → Choice) {channel : String}
    (hprovider : ProviderFactory.getProvider channel = .ok provider) (idle : s.db.pending = [])
    (hmessages : s.db.messages = rows ++ es.map ParsedKafkaMessage.newRow)
    (wellFormed : ∀ e ∈ es, e.WellFormed)
    (messageIds : (es.map fun e => e.asMessage.messageId).Nodup)
    (absent : ∀ e ∈ es, ∀ r ∈ rows, r.messageId ≠ e.asMessage.messageId)
    (unscheduled : ∀ e ∈ es, ∀ x ∈ s.redis.zsets "retries", ¬ RetryOf e.asMessage x.1) :
    ∃ outcomes results s', (forEach es (processMessage interfaceRepository channel [])).run
        (World.handler uuid choose) s = (.ok results, s') ∧
      BatchDelivered provider rows es outcomes s s' ∧
      (results.all fun r => r.success || r.isDuplicate) = outcomes.all Except.isOk ∧
      s'.resolved = s.resolved := by
  induction es generalizing s rows with
  | nil => exact ⟨[], [], s, rfl, ⟨rfl, by simp, hmessages, by simp, by simp, by simp, by simp,
      fun _ _ => Iff.rfl⟩, rfl, rfl⟩
  | cons e es ih =>
      rw [List.forall_mem_cons] at wellFormed absent unscheduled
      rw [List.map_cons, List.nodup_cons] at messageIds
      have others : ∀ e' ∈ es, e'.asMessage.messageId ≠ e.asMessage.messageId :=
        fun e' he' same => messageIds.1 (List.mem_map.mpr ⟨e', he', same⟩)
      have hchannels : ∀ e' ∈ e :: es, NoColon e'.asMessage.channel :=
        List.forall_mem_cons.mpr ⟨noColon_channel wellFormed.1, fun e' he' =>
          noColon_channel (wellFormed.2 e' he')⟩
      obtain ⟨result, s₁, hrun, processed⟩ := run_processMessage choose channel [] uuid e idle
      cases processed with
      | skipped h => exact absurd h (not_skipped_nil e)
      | unknown _ h => exact absurd hprovider (h provider)
      | blocked _ _ h => exact absurd h (not_blocked_of_newRow hmessages absent.1)
      | @tried provider' outcome _ _ hprovider' _ _ leaves =>
          obtain rfl : provider = provider' := Except.ok.inj (hprovider.symm.trans hprovider')
          have hmessages₁ := Leaves.messages leaves wellFormed.1 hmessages fun r hr => by
            cases List.mem_append.mp hr with
            | inl hr => exact absent.1 r hr
            | inr hr =>
                obtain ⟨e', he', rfl⟩ := List.mem_map.mp hr
                rw [newRow_messageId (wellFormed.2 e' he')]
                exact others e' he'
          rw [← List.singleton_append, ← List.append_assoc] at hmessages₁
          have absent₁ : ∀ e' ∈ es, ∀ r ∈ rows ++ [settledRow e outcome],
              r.messageId ≠ e'.asMessage.messageId := fun e' he' r hr => by
            cases List.mem_append.mp hr with
            | inl hr => exact absent.2 e' he' r hr
            | inr hr =>
                obtain rfl := List.mem_singleton.mp hr
                exact (newRow_messageId wellFormed.1).trans_ne (others e' he').symm
          have unscheduled₁ : ∀ e' ∈ es, ∀ x ∈ s₁.redis.zsets "retries",
              ¬ RetryOf e'.asMessage x.1 := fun e' he' x hx own => by
            cases leaves.mem_retries hx with
            | inl own' =>
                exact others e' he' (own.messageId own' (hchannels e' (List.mem_cons_of_mem _ he'))
                  (hchannels e List.mem_cons_self))
            | inr hx => exact unscheduled.2 e' he' x hx own
          obtain ⟨outcomes, results, s', hrest, delivered, hall, hresolved⟩ := ih
            (by rw [leaves.db, Database.afterOutcome_pending, idle]) hmessages₁ wellFormed.2
            messageIds.2 absent₁ unscheduled₁
          refine ⟨outcome :: outcomes, _ :: results, s', by simp [forEach, hrun, hrest]; rfl,
            delivered.cons leaves hchannels others unscheduled.1, ?_,
            hresolved.trans leaves.resolved⟩
          rw [List.all_cons, List.all_cons, hall, Bool.or_false]

end Loop

section Batches

variable {w : World} {b : Batch} {es : List ParsedKafkaMessage} {provider : IProvider}

/-- All events get past the unique keys if no two rows clash. -/
theorem insertable_eq_self {rows : List MessageRow}
    (free : ∀ e ∈ es, ∀ r ∈ rows, e.newRow.clashes r = false)
    (apart : es.Pairwise fun e e' => e'.newRow.clashes e.newRow = false) :
    insertable rows es = es := by
  induction es generalizing rows with
  | nil => rfl
  | cons e es ih =>
      rw [List.forall_mem_cons] at free
      rw [List.pairwise_cons] at apart
      rw [insertable, if_neg (by simpa using free.1), ih (fun e' he' r hr => ?_) apart.2]
      cases List.mem_append.mp hr with
      | inl hr => exact free.2 e' he' r hr
      | inr hr =>
          obtain rfl := List.mem_singleton.mp hr
          exact apart.1 e' he'

theorem clashes_newRow_eq_false {e : ParsedKafkaMessage} {r : MessageRow} (h : e.WellFormed) :
    e.newRow.clashes r = false ↔ r.messageId ≠ e.asMessage.messageId ∧
      r.pair ≠ e.asMessage.pair ∧ r.dedupKey ≠ e.asMessage.dedupKey := by
  have hident := newRow_ident h
  simp only [MessageRow.ident, MessageToDeliver.ident, Prod.mk.injEq] at hident
  rw [← Bool.not_eq_true, MessageRow.clashes_iff, hident.1, hident.2.1, hident.2.2]
  simp only [not_or, ne_eq, eq_comm]

/-- The check finds nothing of a fresh batch. -/
theorem rowsFor_of_fresh (fresh : Fresh w es) :
    rowsFor w.db (es.map ParsedKafkaMessage.toCheck) = [] := by
  apply List.filter_eq_nil_iff.mpr
  intro r hr hname
  obtain ⟨m, member, hname⟩ := mem_extractUnique (of_decide_eq_true hname)
  obtain ⟨e, he, rfl⟩ := List.mem_map.mp member
  obtain ⟨-, -, -, -, -, htenant, hkey⟩ := Consuming.ident_of_wellFormed (fresh.wellFormed e he)
  apply (fresh.absent e he r hr).2.1
  have hnames : r.name = (e.tenantId, e.effectiveKey) := hname
  rw [htenant, hkey] at hnames
  simpa [MessageRow.name, MessageRow.pair, MessageToDeliver.pair] using hnames

theorem newEvents_of_fresh (fresh : Fresh w es) : newEvents w.db es = es := by
  rw [newEvents, rowsFor_of_fresh fresh]
  exact List.filter_eq_self.mpr fun _ _ => rfl

theorem storedEvents_of_fresh (fresh : Fresh w es) : storedEvents w.db es = es := by
  rw [storedEvents, newEvents_of_fresh fresh]
  refine insertable_eq_self (fun e he r hr =>
    (clashes_newRow_eq_false (fresh.wellFormed e he)).mpr (fresh.absent e he r hr)) ?_
  have messageIds := List.pairwise_map.mp fresh.messageIds
  have pairs := List.pairwise_map.mp fresh.pairs
  have dedupKeys := List.pairwise_map.mp fresh.dedupKeys
  refine ((messageIds.and (pairs.and dedupKeys)).imp_of_mem fun he he' h => ?_)
  have hident := newRow_ident (fresh.wellFormed _ he)
  simp only [MessageRow.ident, MessageToDeliver.ident, Prod.mk.injEq] at hident
  rw [clashes_newRow_eq_false (fresh.wellFormed _ he'), hident.1, hident.2.1, hident.2.2]
  exact h

theorem duplicatesOf_of_fresh (fresh : Fresh w es) : duplicatesOf w.db es = [] := by
  rw [duplicatesOf, rowsFor_of_fresh fresh, partitionBatch_eq]
  exact List.filterMap_eq_nil_iff.mpr fun _ _ => rfl

theorem prepared_of_fresh (hparse : b.messages.mapM KafkaMessage.parse = .ok es)
    (fresh : Fresh w es) : Prepared w.db b es where
  parsed := hparse
  queried _ := selectExisting_check fun m hm => by
    obtain ⟨e, he, rfl⟩ := List.mem_map.mp hm
    exact Consuming.keyed_of_wellFormed (fresh.wellFormed e he)
  stored := (newEvents_of_fresh fresh).symm ▸ fresh.wellFormed

end Batches

section Sample

/-- A batch of two fresh messages. -/
def freshBatch : Batch :=
  (Consuming.batchOf [sampleMessage, { sampleMessage with
    messageId := "m-2", dedupKey := "d-2", idempotencyKey := some "key-2" }]).toBatch

theorem countsAttempts_freshBatch : ∀ msg ∈ freshBatch.messages, ∀ value,
    msg.value = some (some value) → CountsAttempts (value.get? "attempt") := by
  intro msg member value hvalue
  obtain rfl | rfl := List.mem_pair.mp (show msg ∈ [_, _] from member) <;> cases hvalue <;>
    trivial

theorem fresh_freshBatch : ∃ es, freshBatch.messages.mapM KafkaMessage.parse = .ok es ∧
    Fresh {} es :=
  ⟨_, rfl, ⟨by decide, by decide, by decide, by decide, fun _ _ _ h => absurd h List.not_mem_nil,
    fun _ _ _ h => absurd h List.not_mem_nil⟩⟩

end Sample

end Worker

end Notification
