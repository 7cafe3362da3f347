import Notification.Aggregator.AtLeastOnce

/-!
# What becomes of a message when calls fail

No worker crashes, but any call to MySQL, Redis, Kafka or a provider may throw, whether it has
had its effect or not, and the offset of a batch is committed whatever its `eachBatch` has
swallowed. A message is lost if it is neither delivered nor in the DLQ nor scheduled for a retry
by then.

Each row belongs to the worker that has inserted it, and says what this worker has learnt,
unless it is delivered without the worker knowing. When a worker has come to its end, each
message it owns is delivered, in the DLQ or scheduled, and nobody else touches the row. So what
is committed is accounted for, as long as a batch is not dropped by a call that throws, a failure
can be written down, no check takes the unfinished work of another worker for a duplicate, and
the retry loop leaves the retries alone.
-/

namespace Notification

open Interaction Program

namespace Consuming

/-- The call deletes retries that are due. -/
def removes : Call → Bool
  | .redis (.zRemRangeByScore _ _ _) => true
  | _ => false

/-- Every external call may throw, before it has had its effect or after, except that a poll
which throws has deleted nothing. -/
def mayThrow (uuid : ℕ → String) (pid : ℕ) : Env Reply JsError World := fun w ev w' =>
  w.lossy uuid pid ev w' ∧ (removes ev.call = true → w.faulty uuid pid ev w')

/-- Workers that do not crash, in a world in which every external call may throw. -/
def failing (uuid : ℕ → String) : Machine Reply JsError Unit WorkerJob World :=
  consumers (mayThrow uuid) fun _ _ _ => False

/-! ## Messages that are accounted for -/

/-- The row of the message is `finalDelivered`, or `FAILED` with a DLQ entry. -/
def settled (db : Database) (messageId : String) : Bool :=
  db.messages.any fun r => r.messageId == messageId && (r.finalDelivered ||
    (r.status == .failed && db.dlqEntries.any fun entry => entry.messageId == messageId))

/-- A retry of the message waits in the sorted set. -/
def Retried (w : World) (messageId : String) : Prop :=
  ∃ score channel attempt,
    (RetrySchedulerService.payload messageId channel attempt, score) ∈ w.redis.zsets "retries"

/-- A retry of the message has been published, and its offset is not committed yet. -/
def Republished (w : World) (messageId : String) : Prop :=
  ∃ topic ∈ topics, ∃ partition offset retry, w.committed topic partition ≤ offset ∧
    (w.events topic partition)[offset]? = some (Worker.retryMessage retry).toJson ∧
    retry.messageId = messageId

def Accounted (w : World) (messageId : String) : Prop :=
  settled w.db messageId = true ∨ Retried w messageId ∨ Republished w messageId

/-- Every committed well-formed event is accounted for. -/
def NoneLost (w : World) : Prop :=
  ∀ topic ∈ topics, ∀ partition offset value e, (w.events topic partition)[offset]? = some value →
    parseEvent value = .ok e → e.WellFormed → offset < w.committed topic partition →
      Accounted w e.asMessage.messageId

/-! ## Steps that lose nothing -/

/-- The worker has come to its end. -/
def ended (P : WorkerProc) : Bool :=
  match P.rest with
  | .done _ => true
  | .step _ _ => false

/-- Whoever has put the row into the table has come to its end. -/
def atRest (s : Workers) (ident : String × (String × String) × String) : Bool :=
  s.procs.all fun P => ended P || !P.trace.any (inserts ident)

/-- No event of a batch takes the row for its own if it is the row of another message. -/
def fits (b : Batch) (r : MessageRow) : Bool :=
  (entries b).all fun e => !decide e.WellFormed || e.asMessage.pair != r.pair ||
    e.asMessage.messageId == r.messageId

/-- The duplicate check finds no row that somebody is still working on, and none of another
message. -/
def finds (s : Workers) (pid : ℕ) (ev : CallEvent) : Bool :=
  (answeredRows ev).all fun r => atRest s r.ident &&
    s.procs[pid]?.all fun P => fits P.job.toBatch r

/-- An `INSERT` is only skipped because its own transaction has inserted the message. -/
def skips (s : Workers) (pid : ℕ) : CallEvent → Bool
  | ⟨.sql (.execute (.insert .messages columns values)), .error e⟩ =>
    e.code != some "ER_DUP_ENTRY" || s.shared.db.pending.any fun p =>
      p.1 == pid && p.2.messageId == (insertedRow columns values).messageId
  | _ => true

/-- A worker that has the message in its batch is still at work. -/
def busy (s : Workers) (messageId : String) : Bool :=
  s.procs.any fun P => !ended P && (entries P.job.toBatch).any fun e =>
    decide e.WellFormed && e.asMessage.messageId == messageId

/-- The member of the sorted set begins with the `messageId` and a colon. -/
def retryOf (messageId member : String) : Bool :=
  (messageId ++ ":").toList.isPrefixOf member.toList

/-- No message that has been handed out needs the retry. -/
def spent (s : Workers) (member : String) : Bool :=
  (handed s).all fun e => !decide e.WellFormed || !retryOf e.asMessage.messageId member ||
    (settled s.shared.db e.asMessage.messageId && !busy s e.asMessage.messageId)

/-- The retry loop only deletes retries that are not needed any more. -/
def deletes (s : Workers) : CallEvent → Bool
  | ⟨.redis (.zRemRangeByScore key min max), .ok _⟩ =>
    ((s.shared.redis.zsets key).filter (Redis.inRange min max)).all fun m => spent s m.1
  | _ => true

/-- Batches are such that the group can cope with them, the calls that prepare a batch or write
a failure down do not throw, and no call finds, skips or deletes what it must not. -/
def unharmed (s : Workers) : Action Reply JsError WorkerJob → Bool
  | .start (.batch b) => admits s b
  | .turn pid ev => tolerable ev && finds s pid ev && skips s pid ev && deletes s ev
  | _ => true

/-! ## Who owns a message -/

/-- The `INSERT` of a row with this `messageId`. -/
def stores (messageId : String) : CallEvent → Bool
  | ⟨.sql (.execute (.insert .messages columns values)), .ok _⟩ =>
    (insertedRow columns values).messageId == messageId
  | _ => false

/-- The worker has inserted the row of the message, and has not rolled back. -/
def owns (messageId : String) (t : Trace Reply JsError) : Bool :=
  t.any (stores messageId) && !t.any isRollback

/-- A worker that owns the message has come to its end. -/
def Closed (s : Workers) (messageId : String) : Prop :=
  ∃ P ∈ s.procs, ended P = true ∧ owns messageId P.trace = true

/-- The message is delivered, in the DLQ, or has a retry. -/
def Held (w : World) (messageId : String) : Prop :=
  settled w.db messageId = true ∨ Retried w messageId

/-- The worker has inserted the row. -/
def Origin (t : Trace Reply JsError) (r : MessageRow) : Prop :=
  t.any (inserts r.ident) = true ∧ t.any (stores r.messageId) = true

/-- The row of a message says what its owner has learnt, or is delivered. -/
def Tells (db : Database) (pid : ℕ) (messageId : String) (t : Trace Reply JsError) : Prop :=
  ∃ r ∈ db.visible pid, r.messageId = messageId ∧
    (r.finalDelivered = true ∨ (r.status, r.finalDelivered) = known messageId t) ∧
    (t.any isCommit = true → r ∈ db.messages)

/-- What is known of a row that the duplicate check of a batch has found. -/
structure Found (s : Workers) (b : Batch) (r : MessageRow) : Prop where
  closed : Closed s r.messageId
  asked : ∃ e ∈ entries b, e.tenantId = some r.tenantId ∧ e.effectiveKey = some r.idempotencyKey
  fits : fits b r = true

/-- Why an unharmed run loses no message. -/
structure Unharmed (s : Workers) : Prop where
  inOrder : InOrder (fun _ e => Closed s e.asMessage.messageId) s
  distinct : s.shared.db.Distinct
  messages : ∀ r ∈ s.shared.db.messages, ∃ P ∈ s.procs, Origin P.trace r
  pending : ∀ pid r, (pid, r) ∈ s.shared.db.pending →
    ∃ P, s.procs[pid]? = some P ∧ Origin P.trace r
  owned : ∀ (pid : ℕ) (P : WorkerProc) messageId, s.procs[pid]? = some P →
    owns messageId P.trace = true → Tells s.shared.db pid messageId P.trace
  unique : ∀ (p q : ℕ) (P Q : WorkerProc) messageId, s.procs[p]? = some P →
    s.procs[q]? = some Q → owns messageId P.trace = true → owns messageId Q.trace = true → p = q
  /-- A skipped message is in the worker's own transaction. -/
  skipped : ∀ P ∈ s.procs, ∀ ident, P.trace.any (inserts ident) = true →
    P.trace.any isRollback = false → owns ident.1 P.trace = true
  learnt : ∀ P ∈ s.procs, ∀ messageId, known messageId P.trace ≠ (.inProgress, false) →
    ∃ r ∈ s.shared.db.messages, r.messageId = messageId
  found : ∀ P ∈ s.procs, ∀ ev ∈ P.trace, ∀ r ∈ answeredRows ev, Found s P.job.toBatch r
  scheduled : ∀ P ∈ s.procs, ended P = false → ∀ e ∈ entries P.job.toBatch, e.WellFormed →
    ∀ ev ∈ P.trace, Schedules e.asMessage.messageId ev → Retried s.shared e.asMessage.messageId
  buried : ∀ P ∈ s.procs, ∀ messageId, P.trace.any (buries messageId) = true →
    (s.shared.db.dlqEntries.any fun entry => entry.messageId == messageId) = true
  held : ∀ messageId, Closed s messageId → Held s.shared messageId

section Events

variable {uuid : ℕ → String} {pid : ℕ} {w w' : World} {ev : CallEvent} {messageId : String}
  {t : Trace Reply JsError} {b : Batch} {e : ParsedKafkaMessage} {r r' : MessageRow}

theorem stores_iff : stores messageId ev = true ↔ ∃ columns values,
    ev = ⟨.sql (.execute (.insert .messages columns values)), .ok ()⟩ ∧
      (insertedRow columns values).messageId = messageId := by
  unfold stores
  split
  · next columns values _ =>
      rw [beq_iff_eq]
      refine ⟨fun h => ⟨columns, values, rfl, h⟩, ?_⟩
      rintro ⟨columns', values', heq, h⟩
      cases heq
      exact h
  · next hnot =>
      apply iff_of_false Bool.false_ne_true
      rintro ⟨columns, values, rfl, -⟩
      exact hnot columns values () rfl

theorem owns_iff : owns messageId t = true ↔
    t.any (stores messageId) = true ∧ t.any isRollback = false := by
  rw [owns, Bool.and_eq_true, Bool.not_eq_true']

theorem owns_cons (h : owns messageId (ev :: t) = true) :
    isRollback ev = false ∧ (stores messageId ev = true ∨ owns messageId t = true) := by
  rw [owns_iff, List.any_cons, List.any_cons, Bool.or_eq_true, Bool.or_eq_false_iff] at h
  exact ⟨h.2.1, h.1.imp_right fun stored => owns_iff.mpr ⟨stored, h.2.2⟩⟩

theorem Origin.cons (h : Origin t r) (ev : CallEvent) : Origin (ev :: t) r :=
  ⟨any_of_suffix (List.suffix_cons _ _) h.1, any_of_suffix (List.suffix_cons _ _) h.2⟩

theorem Origin.congr (h : Origin t r) (same : r'.ident = r.ident) : Origin t r' := by
  have hid : r'.messageId = r.messageId := congrArg Prod.fst same
  rwa [Origin, same, hid]

theorem origin_of_insert (columns : List String) (values : List Expr) :
    Origin (⟨.sql (.execute (.insert .messages columns values)), .ok ()⟩ :: t)
      (insertedRow columns values) := by
  simp [Origin, inserts, stores, accepted]

theorem Unmatched.cons (h : Unmatched e t) (silent : answeredRows ev = []) :
    Unmatched e (ev :: t) := by
  intro ev' member r hr
  obtain rfl | member := List.mem_cons.mp member
  · rw [silent] at hr
    cases hr
  · exact h ev' member r hr

/-- A worker only inserts messages of its own batch, which its check has not found. -/
theorem unmatched_of_stores (always : Always (MayConsume b) t)
    (tolerated : ∀ ev ∈ t, Tolerable ev) (h : t.any (stores messageId) = true) :
    ∃ e ∈ entries b, e.WellFormed ∧ e.asMessage.messageId = messageId ∧ Unmatched e t := by
  induction t with
  | nil => cases h
  | cons ev before ih =>
      obtain ⟨may, always⟩ := always
      rw [List.forall_mem_cons] at tolerated
      rw [List.any_cons, Bool.or_eq_true] at h
      cases h with
      | inl h =>
          obtain ⟨columns, values, rfl, rfl⟩ := stores_iff.mp h
          obtain ⟨⟨e, he, unmatched, heq⟩, -⟩ := may
          obtain ⟨hwell, hident⟩ := event_of_insert tolerated.1 rfl heq
          exact ⟨e, he, hwell, (congrArg Prod.fst hident).symm, unmatched.cons rfl⟩
      | inr h =>
          obtain ⟨e, he, hwell, hid, unmatched⟩ := ih always tolerated.2 h
          refine ⟨e, he, hwell, hid, unmatched.cons (answeredRows_of_not_isSelect ?_)⟩
          -- there is no check after an `INSERT`
          obtain ⟨stored, member, h⟩ := List.any_eq_true.mp h
          obtain ⟨columns, values, rfl, -⟩ := stores_iff.mp h
          unfold isSelect
          split
          · exact absurd rfl (List.any_eq_false.mp may.2 _ member)
          · rfl

/-- What a worker learns of a message, it learns by an update or from the row. -/
theorem learns_cases (messageId : String) (ev : CallEvent) (k : Status × Bool) :
    learns messageId ev k = k ∨
    (∃ status finalDelivered attempts, ev =
        ⟨.repository (.updateStatus messageId status finalDelivered attempts), .ok ()⟩ ∧
      learns messageId ev k = (status, finalDelivered)) ∨
    (hits messageId ev = true ∧ learns messageId ev k = (k.1, true)) := by
  unfold learns
  split
  · next _ messageId' status finalDelivered attempts _ =>
      split
      · next heq => exact .inr (.inl ⟨status, finalDelivered, attempts, by rw [heq], rfl⟩)
      · exact .inl rfl
  · next _ messageId' status =>
      split
      · next heq => exact .inr (.inr ⟨by simp [hits, heq.1, heq.2], rfl⟩)
      · exact .inl rfl
  · exact .inl rfl

theorem row_of_found (answer : mayThrow uuid pid w ev w') (h : hits messageId ev = true) :
    ∃ r ∈ w.db.messages, r.messageId = messageId ∧ r.finalDelivered = true := by
  have isUp : w.up uuid pid ev w' := by
    unfold hits at h
    split at h
    · exact World.up_of_lossy_ok answer.1
    · cases h
  exact row_of_hits isUp h

/-- What a tolerable call has done to the rows: what it has answered, but an update that says
delivered may have been carried out although it throws. -/
def CarriedOut (ev done : CallEvent) : Prop :=
  ev = done ∨ ∃ messageId status attempts e,
    ev = ⟨.repository (.updateStatus messageId status true attempts), .error e⟩ ∧
    done = ⟨.repository (.updateStatus messageId status true attempts), .ok ()⟩

theorem CarriedOut.insert {columns : List String} {values : List Expr}
    (h : CarriedOut ev ⟨.sql (.execute (.insert .messages columns values)), .ok ()⟩) :
    ev = ⟨.sql (.execute (.insert .messages columns values)), .ok ()⟩ := by
  obtain heq | ⟨_, _, _, _, -, heq⟩ := h
  · exact heq
  · cases heq

theorem CarriedOut.update {status : Status} {finalDelivered : Bool} {attempts : Int}
    (h : CarriedOut ev
      ⟨.repository (.updateStatus messageId status finalDelivered attempts), .ok ()⟩) :
    ∃ x, ev = ⟨.repository (.updateStatus messageId status finalDelivered attempts), x⟩ := by
  obtain heq | ⟨_, _, _, e, rfl, heq⟩ := h
  · exact ⟨_, heq⟩
  · cases heq
    exact ⟨.error e, rfl⟩

theorem rows_of_mayThrow (answer : mayThrow uuid pid w ev w')
    (noUpdate : ∀ assignments keyColumn key,
      ev.call ≠ .sql (.execute (.update assignments keyColumn key)))
    (tolerated : Tolerable ev)
    (duplicate : ∀ columns values e,
      ev = ⟨.sql (.execute (.insert .messages columns values)), .error e⟩ →
      e.code = some "ER_DUP_ENTRY" → ∃ x ∈ w.db.visible pid,
        (insertedRow columns values).clashes x) :
    ∃ done, CarriedOut ev done ∧ RowStep pid done w.db w'.db := by
  obtain ⟨faulty | ⟨-, ⟨e, he⟩, r, up⟩, -⟩ := answer
  · exact ⟨ev, .inl rfl, rowStep_of_faulty faulty noUpdate duplicate⟩
  obtain ⟨c, r'⟩ := ev
  obtain rfl : r' = .error e := he
  have succeeded := tolerable_of_up up
  have step := rowStep_of_up up noUpdate
  cases step with
  | keep hmessages hpending _ _ =>
      refine ⟨_, .inl rfl, .keep hmessages hpending (fun columns values r heq => ?_)
        fun _ _ _ _ heq => by cases heq⟩
      cases heq
      exact ⟨fun h => (by cases h), fun haccepted =>
        duplicate _ _ e rfl (by simpa [accepted] using haccepted)⟩
  | @update _ _ messageId status finalDelivered attempts idle hmessages hpending =>
      cases finalDelivered with
      | true => exact ⟨_, .inr ⟨_, _, _, e, rfl, rfl⟩, .update idle hmessages hpending⟩
      | false => cases tolerated
  | insert free _ =>
      -- the schema admits it, so it only throws for a row that is there
      simp only [Tolerable, tolerable, beq_iff_eq] at tolerated succeeded
      have haccepted := tolerated.trans succeeded.symm
      obtain ⟨x, hx, clash⟩ := duplicate _ _ e rfl (by simpa [accepted] using haccepted)
      rw [free x (Database.rows_of_visible hx)] at clash
      cases clash
  | commit => cases tolerated
  | rollback => cases tolerated

/-- The DLQ entry that a worker has saved is there. -/
theorem entry_of_buries (answer : mayThrow uuid pid w ev w') (h : buries messageId ev = true) :
    (w'.db.dlqEntries.any fun entry => entry.messageId == messageId) = true := by
  unfold buries at h
  split at h
  · next entity _ =>
      obtain ⟨choice, answer⟩ := World.up_of_lossy_ok answer.1
      cases answer
      simp [h]
  · cases h

theorem retried_of_schedules (answer : mayThrow uuid pid w ev w') (h : Schedules messageId ev) :
    Retried w' messageId := by
  obtain ⟨score, channel, attempt, rfl⟩ := h
  obtain rfl | ⟨-, e, he⟩ := World.lossy_redis answer.1
  · exact ⟨score, channel, attempt, Redis.mem_zAdd.mpr (.inl rfl)⟩
  · cases he

theorem retryOf_payload (messageId channel : String) (attempt : Int) :
    retryOf messageId (RetrySchedulerService.payload messageId channel attempt) = true := by
  rw [retryOf, List.isPrefixOf_iff_prefix, RetrySchedulerService.payload]
  simp [String.toList_append]

/-- A retry stays, unless a poll deletes it. -/
theorem Retried.turn (h : Retried w messageId) (answer : mayThrow uuid pid w ev w') :
    Retried w' messageId ∨ ∃ key min max n,
      ∃ m ∈ (w.redis.zsets key).filter (Redis.inRange min max),
      ev = ⟨.redis (.zRemRangeByScore key min max), .ok n⟩ ∧ retryOf messageId m.1 = true := by
  obtain ⟨score, channel, attempt, member⟩ := h
  by_cases isRedis : ∃ c, ev.call = .redis c
  · obtain ⟨call, r⟩ := ev
    obtain ⟨c, hc⟩ := isRedis
    obtain rfl : call = .redis c := hc
    obtain rfl | ⟨rfl, -⟩ := World.lossy_redis answer.1
    · cases c with
      | zAdd key score' member' =>
          refine .inl ?_
          by_cases hkey : key = "retries"
          · subst hkey
            by_cases hsame : RetrySchedulerService.payload messageId channel attempt = member'
            · exact ⟨score', channel, attempt, Redis.mem_zAdd.mpr (.inl (by rw [hsame]))⟩
            · exact ⟨score, channel, attempt, Redis.mem_zAdd.mpr (.inr ⟨member, hsame⟩)⟩
          · refine ⟨score, channel, attempt, ?_⟩
            simpa [Redis.answer, Redis.zAdd, Function.update_of_ne (Ne.symm hkey)] using member
      | zRemRangeByScore key min max =>
          by_cases hkey : key = "retries"
          · subst hkey
            by_cases inRange : Redis.inRange min max
              (RetrySchedulerService.payload messageId channel attempt, score) = true
            · obtain ⟨rfl, -⟩ | ⟨kept, -⟩ := World.faulty_redis (answer.2 rfl)
              · exact .inr ⟨_, min, max, _, _, List.mem_filter.mpr ⟨member, inRange⟩, rfl,
                  retryOf_payload _ _ _⟩
              · rw [kept]
                exact .inl ⟨score, channel, attempt, member⟩
            · refine .inl ⟨score, channel, attempt, ?_⟩
              simpa [Redis.answer, Redis.zRemRangeByScore, inRange] using member
          · refine .inl ⟨score, channel, attempt, ?_⟩
            simpa [Redis.answer, Redis.zRemRangeByScore, Function.update_of_ne (Ne.symm hkey)]
              using member
      | setNX key value =>
          refine .inl ⟨score, channel, attempt, ?_⟩
          simp only [Redis.answer]
          split <;> exact member
      | _ => exact .inl ⟨score, channel, attempt, member⟩
    · exact .inl ⟨score, channel, attempt, member⟩
  · refine .inl ⟨score, channel, attempt, ?_⟩
    rwa [World.lossy_redis_eq answer.1 fun c hc => isRedis ⟨c, hc⟩]

end Events

section Owners

variable {uuid : ℕ → String} {s : Workers} {pid : ℕ} {P Q : WorkerProc} {messageId : String}
  {φ : World → ParsedKafkaMessage → Prop}

/-- What a worker of an unharmed run has done. -/
structure Followed (P : WorkerProc) : Prop where
  always : Always (MayConsume P.job.toBatch) P.trace
  tolerated : ∀ ev ∈ P.trace, Tolerable ev
  finished : ended P = true → (∃ provider, ProviderFactory.getProvider
      (Worker.channelOf P.job.toBatch.topic) = .ok provider) →
    (∀ e ∈ entries P.job.toBatch, e.WellFormed) →
      ∀ e ∈ entries P.job.toBatch, Handled P.job.toBatch e P.trace

theorem followed (run : (failing uuid).Run (fun s a => unharmed s a = true) {} s)
    (hP : s.procs[pid]? = some P) : Followed P := by
  have tolerated : ∀ ev ∈ P.trace, Tolerable ev := by
    refine run.events (fun s pid ev s' _ permitted => ?_) pid P hP
    simp only [unharmed, Bool.and_eq_true] at permitted
    exact permitted.1.1.1
  have facts := run.coherent.local_invariant hP (wp_code P.job) trivial tolerated
  refine ⟨facts.1, tolerated, fun hended => ?_⟩
  unfold ended at hended
  split at hended
  · next outcome hrest => exact facts.2 outcome hrest
  · cases hended

theorem wellFormed_of_uniform {b : Batch} (uniform : Uniform b) {e : ParsedKafkaMessage}
    (he : e ∈ entries b) (hwell : e.WellFormed) : ∀ msg ∈ b.messages, msg.wellFormed = true := by
  apply uniform.1.resolve_right
  intro none
  unfold entries at he
  split at he
  · next parsed hparse =>
      obtain ⟨msg, member, hmsg⟩ := (mem_of_mapM_parse hparse).mp he
      have := none msg member
      simp [KafkaMessage.wellFormed, hmsg, hwell] at this
  · cases he

/-- What is known of the job of a worker in a group that is in order. -/
theorem InOrder.handled (inOrder : InOrder φ s) (hP : P ∈ s.procs) (hjob : Q.job = P.job)
    (followed : Followed Q) (hended : ended Q = true) {e : ParsedKafkaMessage}
    (he : e ∈ entries Q.job.toBatch) (hwell : e.WellFormed) :
    (∀ e ∈ entries Q.job.toBatch, e.WellFormed) ∧
      ∀ e ∈ entries Q.job.toBatch, Handled Q.job.toBatch e Q.trace := by
  cases hbatch : Q.job with
  | poll =>
      rw [hbatch] at he
      exact absurd he List.not_mem_nil
  | batch b =>
      obtain ⟨htopic, uniform, -⟩ := inOrder.jobs P hP b (hjob.symm.trans hbatch)
      have finished := followed.finished hended
      rw [hbatch] at he finished
      have wellFormed : ∀ e ∈ entries b, e.WellFormed := fun e' he' =>
        wellFormed_of_mem_entries (wellFormed_of_uniform uniform he hwell) he'
      exact ⟨wellFormed, finished (provider_of_topic htopic) wellFormed⟩

/-- When a worker has come to its end, the messages it has inserted are there, and their
deliveries have come to an end. -/
theorem InOrder.ready (inOrder : InOrder φ s) (hP : P ∈ s.procs) (hjob : Q.job = P.job)
    (followed : Followed Q) (hended : ended Q = true)
    (stored : Q.trace.any (stores messageId) = true) :
    ∃ e ∈ entries Q.job.toBatch, e.WellFormed ∧ e.asMessage.messageId = messageId ∧
      Ready Q.job.toBatch e.asMessage Q.trace ∧ Concluded messageId Q.trace := by
  obtain ⟨e, he, hwell, rfl, unmatched⟩ :=
    unmatched_of_stores followed.always followed.tolerated stored
  obtain ⟨wellFormed, handled⟩ := inOrder.handled hP hjob followed hended he hwell
  refine ⟨e, he, hwell, rfl, ?_⟩
  obtain ⟨ev, hev, r, hr, e', he', hid, hkey⟩ | ⟨ready, concluded, -⟩ := handled e he
  · have given {e : ParsedKafkaMessage} (he : e ∈ entries Q.job.toBatch) : e ∈ handed s :=
      mem_handed.mpr ⟨P, hP, hjob ▸ he⟩
    have same := inOrder.identified e' (given he') e (given he) (wellFormed e' he') hwell hid
    rw [key_of_pair (wellFormed e' he') hwell same] at hkey
    exact absurd hkey (unmatched ev hev r hr)
  · exact ⟨ready, concluded⟩

theorem owns_of_ready (h : Unharmed s) (hP : P ∈ s.procs) {b : Batch} {m : MessageToDeliver}
    (ready : Ready b m P.trace) : owns m.messageId P.trace = true :=
  h.skipped P hP m.ident ready.inserted ready.kept

/-- Who has inserted a row and come to its end owns the message. -/
theorem closed_of_origin (h : Unharmed s) (hP : P ∈ s.procs) (followed : Followed P)
    (hended : ended P = true) {r : MessageRow} (origin : Origin P.trace r) :
    Closed s r.messageId := by
  obtain ⟨e, -, -, hid, ready, -⟩ := h.inOrder.ready hP rfl followed hended origin.2
  exact ⟨P, hP, hended, hid ▸ owns_of_ready h hP ready⟩

/-- When a worker has come to its end, all the well-formed events of its batch are closed. -/
theorem closed_of_ended (h : Unharmed s) (hP : P ∈ s.procs) (followed : Followed P)
    (hended : ended P = true) {e : ParsedKafkaMessage} (he : e ∈ entries P.job.toBatch)
    (hwell : e.WellFormed) : Closed s e.asMessage.messageId := by
  obtain ⟨wellFormed, handled⟩ := h.inOrder.handled hP rfl followed hended he hwell
  obtain ⟨ev, hev, r, hr, e', he', hid, hkey⟩ | ⟨ready, -, -⟩ := handled e he
  · -- the row that was found is that of the event itself
    obtain ⟨closed, ⟨e₀, he₀, htenant, hkey₀⟩, fits⟩ := h.found P hP ev hev r hr
    obtain ⟨hpair, hkey'⟩ := pair_of_asked (wellFormed e₀ he₀) htenant hkey₀
    have uniform : ∃ b, P.job = .batch b := by
      cases hbatch : P.job with
      | poll =>
          rw [hbatch] at he
          exact absurd he List.not_mem_nil
      | batch b => exact ⟨b, rfl⟩
    obtain ⟨b, hbatch⟩ := uniform
    obtain ⟨-, uniform, -⟩ := h.inOrder.jobs P hP b hbatch
    rw [hbatch] at he he' he₀ fits
    have hpair' := uniform.2 e₀ he₀ e' he' (wellFormed e₀ (hbatch ▸ he₀))
      (wellFormed e' (hbatch ▸ he')) (hkey'.symm.trans hkey)
    simp only [Consuming.fits, List.all_eq_true, Bool.or_eq_true, Bool.not_eq_true',
      decide_eq_false_iff_not, bne_iff_ne, beq_iff_eq] at fits
    have hsame := ((fits e' he').resolve_left fun h => h.elim
      (fun h => h (wellFormed e' (hbatch ▸ he'))) fun h => h (hpair'.symm.trans hpair.symm))
    have hid' : e'.asMessage.messageId = e.asMessage.messageId := by
      have := messageId_of_wellFormed (wellFormed e' (hbatch ▸ he'))
      rw [hid, messageId_of_wellFormed hwell] at this
      exact (Option.some.inj this).symm
    rw [← hid', hsame]
    exact closed
  · exact ⟨P, hP, hended, owns_of_ready h hP ready⟩

end Owners

/-- One call of a worker, in an unharmed run. -/
structure FaultyTurn (s : Workers) (pid : ℕ) (P : WorkerProc) (ev : CallEvent) (shared : World) :
    Prop where
  proc : s.procs[pid]? = some P
  unended : ended P = false
  answer : ∃ uuid, mayThrow uuid pid s.shared ev shared
  may : MayConsume P.job.toBatch ev P.trace
  tolerable : Tolerable ev
  finds : finds s pid ev = true
  skips : skips s pid ev = true
  deletes : deletes s ev = true
  followed : ∀ Q ∈ s.procs, Followed Q

section Step

variable {s : Workers} {pid q : ℕ} {P Q : WorkerProc} {ev : CallEvent} {shared : World}
  {rest : Prog Unit} {messageId : String}

namespace FaultyTurn

theorem member (turn : FaultyTurn s pid P ev shared) : P ∈ s.procs :=
  List.mem_of_getElem? turn.proc

/-- The worker itself has inserted the row that keeps its `INSERT` out. -/
theorem skipped (turn : FaultyTurn s pid P ev shared) {columns : List String}
    {values : List Expr} {e : JsError}
    (hev : ev = ⟨.sql (.execute (.insert .messages columns values)), .error e⟩)
    (dup : e.code = some "ER_DUP_ENTRY") :
    ∃ r, (pid, r) ∈ s.shared.db.pending ∧ r.messageId = (insertedRow columns values).messageId := by
  have skips := turn.skips
  simp only [hev, Consuming.skips, dup, bne_self_eq_false, Bool.false_or, List.any_eq_true,
    Bool.and_eq_true, beq_iff_eq] at skips
  obtain ⟨⟨c, r⟩, hr, rfl, hid⟩ := skips
  exact ⟨r, hr, hid⟩

theorem rows (turn : FaultyTurn s pid P ev shared) :
    ∃ done, CarriedOut ev done ∧ RowStep pid done s.shared.db shared.db := by
  obtain ⟨uuid, answer⟩ := turn.answer
  apply rows_of_mayThrow answer turn.may.noUpdate turn.tolerable
  intro columns values e hev dup
  obtain ⟨r, hr, hid⟩ := turn.skipped hev dup
  exact ⟨r, Database.mem_visible.mpr (.inr hr), MessageRow.clashes_iff.mpr (.inl hid.symm)⟩

/-- A row is only inserted if there is none with its id. -/
theorem free (turn : FaultyTurn s pid P ev shared) (h : stores messageId ev = true)
    {r : MessageRow} (hr : r ∈ s.shared.db.rows) : r.messageId ≠ messageId := by
  obtain ⟨columns, values, rfl, rfl⟩ := stores_iff.mp h
  intro hid
  obtain ⟨done, rfl | ⟨_, _, _, _, hev, -⟩, rows⟩ := turn.rows
  · cases rows with
    | keep _ _ hinsert _ => exact (hinsert _ _ _ rfl).1 rfl
    | insert free _ =>
        have clash := free r hr
        rw [MessageRow.clashes_iff.mpr (.inl hid.symm)] at clash
        cases clash
  · cases hev

/-- A worker only updates messages that it owns. -/
theorem owner_of_update (turn : FaultyTurn s pid P ev shared) (h : Unharmed s) {status : Status}
    {finalDelivered : Bool} {attempts : Int} {x : Except JsError Unit}
    (hev : ev = ⟨.repository (.updateStatus messageId status finalDelivered attempts), x⟩) :
    owns messageId P.trace = true := by
  have may := turn.may
  rw [hev] at may
  obtain ⟨m, rfl, ready, -⟩ := may
  exact owns_of_ready h turn.member ready

/-- A `COMMIT` puts the worker's rows into the table. -/
theorem committed (turn : FaultyTurn s pid P ev shared) (h : isCommit ev = true) {r : MessageRow}
    (hr : r ∈ s.shared.db.visible pid) : r ∈ shared.db.messages := by
  unfold isCommit at h
  split at h
  · next x =>
      obtain ⟨uuid, answer⟩ := turn.answer
      obtain ⟨a, rfl⟩ := exists_of_isOk turn.tolerable
      obtain ⟨db, hdb, rfl⟩ := World.up_sql (World.up_of_lossy_ok answer.1)
      cases hdb
      cases Database.mem_visible.mp hr with
      | inl hr => exact List.mem_append_left _ hr
      | inr hr =>
          refine List.mem_append_right _ (List.mem_map.mpr ⟨(pid, r), ?_, rfl⟩)
          exact List.mem_filter.mpr ⟨hr, by simp⟩
  · cases h

/-- Another worker than the one that makes the call. -/
theorem tells_other (turn : FaultyTurn s pid P ev shared) (h : Unharmed s)
    (hQ : s.procs[q]? = some Q) (hq : q ≠ pid) (owned : owns messageId Q.trace = true) :
    Tells shared.db q messageId Q.trace := by
  obtain ⟨r, hr, rfl, hknown, hcommit⟩ := h.owned q Q messageId hQ owned
  obtain ⟨done, carriedOut, rows⟩ := turn.rows
  have notUpdated : ∀ status finalDelivered attempts, done ≠
      ⟨.repository (.updateStatus r.messageId status finalDelivered attempts), .ok ()⟩ := by
    rintro status finalDelivered attempts rfl
    obtain ⟨x, hev⟩ := carriedOut.update
    exact hq (h.unique q pid Q P _ hQ turn.proc owned (turn.owner_of_update h hev))
  refine ⟨r, rows.visible_same hr notUpdated fun hpid => absurd hpid hq, rfl, hknown,
    fun committed => ?_⟩
  obtain ⟨hr, -⟩ | ⟨_, _, _, hev, -⟩ := rows.messages (hcommit committed)
  · exact hr
  · exact absurd hev (notUpdated _ _ _)

/-- The worker that inserts the row. -/
theorem tells_new (turn : FaultyTurn s pid P ev shared) (h : Unharmed s)
    (stored : stores messageId ev = true) : Tells shared.db pid messageId (ev :: P.trace) := by
  have hlearns : known messageId (ev :: P.trace) = (.inProgress, false) := by
    by_contra hknown
    have hsame : known messageId (ev :: P.trace) = known messageId P.trace := by
      obtain ⟨columns, values, rfl, -⟩ := stores_iff.mp stored
      rfl
    obtain ⟨r, hr, hid⟩ := h.learnt P turn.member messageId (hsame ▸ hknown)
    exact turn.free stored (Database.mem_rows.mpr (.inl hr)) hid
  obtain ⟨columns, values, rfl, hid⟩ := stores_iff.mp stored
  obtain ⟨⟨e, he, -, heq⟩, -, uncommitted, -⟩ := turn.may
  obtain ⟨hstatus, hfinal⟩ := status_of_insert heq
  refine ⟨insertedRow columns values, ?_, hid, .inr (by rw [hlearns, hstatus, hfinal]),
    fun committed => ?_⟩
  · obtain ⟨done, rfl | ⟨_, _, _, _, hev, -⟩, rows⟩ := turn.rows
    · cases rows with
      | keep _ _ hinsert _ => exact absurd rfl (hinsert _ _ _ rfl).1
      | insert _ hcase =>
          apply Database.mem_visible.mpr
          obtain ⟨-, hpending⟩ | ⟨hmessages, -⟩ := hcase
          · exact .inr (hpending ▸ List.mem_append_right _ List.mem_cons_self)
          · exact .inl (hmessages ▸ List.mem_append_right _ List.mem_cons_self)
    · cases hev
  · rw [List.any_cons, uncommitted] at committed
    cases committed

/-- The worker that makes the call, about a row that it has inserted before, if the call has done
what it answers. -/
theorem tells_answered (turn : FaultyTurn s pid P ev shared) (h : Unharmed s)
    (owned : owns messageId P.trace = true) (kept : isRollback ev = false)
    (rows : RowStep pid ev s.shared.db shared.db) :
    Tells shared.db pid messageId (ev :: P.trace) := by
  obtain ⟨r, hr, rfl, hknown, hcommit⟩ := h.owned pid P messageId turn.proc owned
  by_cases hupdated : ∃ status finalDelivered attempts, ev =
      ⟨.repository (.updateStatus r.messageId status finalDelivered attempts), .ok ()⟩
  · obtain ⟨status, finalDelivered, attempts, rfl⟩ := hupdated
    obtain ⟨-, hrow⟩ := rows.visible_updated hr
    refine ⟨_, Database.mem_visible.mpr (.inl hrow), ?_, .inr ?_, fun _ => hrow⟩
    · exact congrArg Prod.fst (MessageRow.ident_updated ..)
    · have hlearns : known r.messageId (⟨.repository (.updateStatus r.messageId status
          finalDelivered attempts), .ok ()⟩ :: P.trace) = (status, finalDelivered) := if_pos rfl
      rw [hlearns, MessageRow.updated, if_pos rfl]
  · have notUpdated : ∀ status finalDelivered attempts, ev ≠
        ⟨.repository (.updateStatus r.messageId status finalDelivered attempts), .ok ()⟩ :=
      fun _ _ _ hev => hupdated ⟨_, _, _, hev⟩
    have hsame := rows.visible_same hr notUpdated fun _ x hev => by
      rw [hev] at kept
      cases kept
    refine ⟨r, hsame, rfl, ?_, fun committed => ?_⟩
    · change _ ∨ _ = learns r.messageId ev (known r.messageId P.trace)
      obtain hlearns | ⟨_, _, _, hev, -⟩ | ⟨hhit, -⟩ :=
        learns_cases r.messageId ev (known r.messageId P.trace)
      · rwa [hlearns]
      · exact absurd hev (notUpdated _ _ _)
      · -- the row that was found delivered is the worker's own
        obtain ⟨uuid, answer⟩ := turn.answer
        obtain ⟨r', hr', hid, hfinal⟩ := row_of_found answer hhit
        obtain rfl := h.distinct r' (Database.mem_rows.mpr (.inl hr')) r
          (Database.rows_of_visible hr) (MessageRow.clashes_iff.mpr (.inl hid))
        exact .inl hfinal
    · rw [List.any_cons, Bool.or_eq_true] at committed
      cases committed with
      | inl committed => exact turn.committed committed hr
      | inr committed =>
          obtain ⟨hr, -⟩ | ⟨_, _, _, hev, -⟩ := rows.messages (hcommit committed)
          · exact hr
          · exact absurd hev (notUpdated _ _ _)

theorem tells_own (turn : FaultyTurn s pid P ev shared) (h : Unharmed s)
    (owned : owns messageId P.trace = true) (kept : isRollback ev = false) :
    Tells shared.db pid messageId (ev :: P.trace) := by
  obtain ⟨done, rfl | ⟨messageId', status, attempts, e, rfl, rfl⟩, rows⟩ := turn.rows
  · exact turn.tells_answered h owned kept rows
  · -- the worker does not know that the message is delivered
    obtain ⟨r, hr, rfl, hknown, hcommit⟩ := h.owned pid P messageId turn.proc owned
    by_cases hid : messageId' = r.messageId
    · subst hid
      obtain ⟨-, hrow⟩ := rows.visible_updated hr
      refine ⟨_, Database.mem_visible.mpr (.inl hrow), ?_, .inl ?_, fun _ => hrow⟩
      · exact congrArg Prod.fst (MessageRow.ident_updated ..)
      · rw [MessageRow.updated, if_pos rfl]
    · have notUpdated (status' : Status) (finalDelivered : Bool) (attempts' : Int) :
          (⟨.repository (.updateStatus messageId' status true attempts), .ok ()⟩ : CallEvent) ≠
            ⟨.repository (.updateStatus r.messageId status' finalDelivered attempts'), .ok ()⟩ := by
        intro heq
        cases heq
        exact hid rfl
      refine ⟨r, rows.visible_same hr notUpdated (fun _ _ heq => by cases heq), rfl, hknown,
        fun committed => ?_⟩
      obtain ⟨hr, -⟩ | ⟨_, _, _, heq, -⟩ := rows.messages (hcommit committed)
      · exact hr
      · exact absurd heq (notUpdated _ _ _)

end FaultyTurn

end Step

end Consuming

end Notification
