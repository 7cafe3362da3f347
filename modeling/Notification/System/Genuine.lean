import Notification.Pipeline.Fidelity
import Notification.System.Services

/-!
# Worlds in which everything has an origin

A world is genuine if each row, each provider call, each recorded attempt and each retry in it
comes from a message event that the router has published, and carries the values of the
request behind it. The calls that the services make keep a world genuine.
-/

namespace Notification

open Interaction Program

/-! ## What an origin becomes -/

namespace Origin

variable (sha256 : String → String) (o : Origin)

/-- The event that the consumer makes of the origin's message. -/
def event : ParsedKafkaMessage := o.request.routed (o.reply sha256 .accepted)

/-- The message that is handed to the processor. -/
def message : MessageToDeliver := (o.event sha256).asMessage

/-- The row as it is inserted. -/
def row : MessageRow := o.request.stored (o.reply sha256 .accepted)

/-- The member of `retries` after a failed first attempt. -/
def member : String := RetrySchedulerService.payload o.messageId o.request.channel 2

/-- The stages of a row: inserted, sent, and failed once. -/
inductive Stage : Status → Bool → Int → Prop
  | inserted : Stage .inProgress false 0
  | sent : Stage .sent true 1
  | failedOnce : Stage .pending false 1

/-- The row of the origin at one of its stages. -/
def Stored (r : MessageRow) : Prop :=
  ∃ status finalDelivered attemptCount, Stage status finalDelivered attemptCount ∧
    r = { o.row sha256 with status, finalDelivered, attemptCount }

/-- The provider call for the origin, as the first attempt. -/
structure Sent (x : Sending) : Prop where
  provider : ProviderFactory.getProvider o.request.channel = .ok ⟨x.provider⟩
  recipient : x.recipient = o.request.recipient
  body : x.body = o.request.body
  options : x.options = DeliveryProcessorService.sendOptions (o.message sha256) 1
  message : x.message = o.message sha256

@[simp] theorem message_messageId : (o.message sha256).messageId = o.messageId := rfl

@[simp] theorem message_attempt : (o.message sha256).attempt = 0 := rfl

@[simp] theorem message_channel : (o.message sha256).channel = o.request.channel := rfl

theorem parseEvent_record (partition : ℕ) :
    parseEvent (o.record sha256 partition).value = .ok (o.event sha256) :=
  Pipeline.parseEvent_message o.request (o.reply sha256 .accepted)

variable {sha256} {o}

/-- An event tells all about its origin. -/
theorem eq_of_event {o' : Origin} (h : o.event sha256 = o'.event sha256) : o = o' := by
  obtain ⟨⟨_, _, _, _, _, _⟩, _, _⟩ := o
  obtain ⟨⟨_, _, _, _, _, _⟩, _, _⟩ := o'
  simp only [event, TextRequest.routed, reply, ParsedKafkaMessage.mk.injEq, Option.some.injEq] at h
  simp only [Origin.mk.injEq, TextRequest.mk.injEq]
  exact ⟨⟨h.2.2.2.1, h.2.2.1, h.2.2.2.2.2.2.2.2.1, h.2.2.2.2.1, h.2.2.2.2.2.1,
    h.2.2.2.2.2.2.1⟩, h.2.2.2.2.2.2.2.1, h.1⟩

theorem eq_of_record {o' : Origin} {partition partition' : ℕ}
    (h : o.record sha256 partition = o'.record sha256 partition') : o = o' := by
  have hvalue := congrArg (fun x => parseEvent x.value) h
  simp only [parseEvent_record] at hvalue
  exact eq_of_event (Except.ok.inj hvalue)

/-- A mark leaves the row of an origin at one of its stages. -/
theorem Stored.updated {r : MessageRow} (h : o.Stored sha256 r) {status : Status}
    {finalDelivered : Bool} {attempts : Int} (stage : Stage status finalDelivered attempts)
    (messageId : String) :
    o.Stored sha256 (r.updated messageId status finalDelivered attempts) := by
  obtain ⟨_, _, _, before, rfl⟩ := h
  unfold MessageRow.updated
  split
  · exact ⟨_, _, _, stage, rfl⟩
  · exact ⟨_, _, _, before, rfl⟩

end Origin

/-- The message event of the origin is on its topic. -/
def World.Published (sha256 : String → String) (w : World) (o : Origin) : Prop :=
  ∃ partition, o.record sha256 partition ∈ w.log

theorem World.Published.mono {sha256 : String → String} {w w' : World} {o : Origin}
    (h : w.Published sha256 o) (log : w.log <+: w'.log) : w'.Published sha256 o := by
  obtain ⟨partition, member⟩ := h
  exact ⟨partition, log.subset member⟩

/-- The event that the retry loop publishes for an origin. -/
def Origin.retryEvent (o : Origin) : Json :=
  (Worker.retryMessage (RetrySchedulerService.parseItem o.member)).toJson

/-- A retry event has no tenant. -/
theorem tenantId_of_retryMessage {retry : PendingRetry} {e : ParsedKafkaMessage}
    (h : parseEvent (Worker.retryMessage retry).toJson = .ok e) : e.tenantId = none := by
  obtain ⟨messageId, channel, attempt⟩ := retry
  cases channel <;> cases h <;> rfl

theorem not_wellFormed_of_tenantId {e : ParsedKafkaMessage} (h : e.tenantId = none) :
    ¬ e.WellFormed := by
  intro wellFormed
  obtain ⟨_, _, _, _, -, htenant, -⟩ := Consuming.ident_of_wellFormed wellFormed
  rw [h] at htenant
  cases htenant

/-! ## Genuine worlds -/

/-- Everything there is comes from an origin whose message has been published. -/
structure Genuine (sha256 : String → String) (w : World) : Prop where
  events : ∀ x ∈ w.log, Ingress.messageTopic x.topic = true →
    (∃ o : Origin, Pipeline.Validated o.request ∧ x = o.record sha256 x.partition) ∨
      ∃ o, w.Published sha256 o ∧ x.value = o.retryEvent
  rows : w.db.Holds fun r => ∃ o, w.Published sha256 o ∧ o.Stored sha256 r
  inbox : ∀ x ∈ w.inbox, ∃ o, w.Published sha256 o ∧ o.Sent sha256 x
  attempts : ∀ a ∈ w.db.deliveryAttempts, ∃ o, w.Published sha256 o ∧
    a.messageId = o.messageId ∧ a.attemptNumber = 1
  dlq : w.db.dlqEntries = []
  retries : ∀ x ∈ w.redis.zsets "retries", ∃ o, w.Published sha256 o ∧ x.1 = o.member
  cached : ∀ key entry, w.redis.strings key = some entry → entry.value = .number 1

/-- The calls that keep a world genuine. -/
def Permitted (sha256 : String → String) (w : World) : Call → Prop
  | .produce topic key value headers => Ingress.messageTopic topic = true →
    (∃ o : Origin, Pipeline.Validated o.request ∧ ∀ partition,
      (⟨topic, partition, key, value, headers⟩ : Record) = o.record sha256 partition) ∨
      ∃ o, w.Published sha256 o ∧ value = o.retryEvent
  | .sql (.execute statement) => statement.check ≠ none ∨
    (∃ columns keyColumns keys, statement = .select columns keyColumns keys) ∨
      ∃ columns values o, statement = .insert .messages columns values ∧
        w.Published sha256 o ∧ insertedRow columns values = o.row sha256
  | .repository (.updateStatus _ status finalDelivered attempts) =>
    Origin.Stage status finalDelivered attempts
  | .repository (.saveAttempt entity) => ∃ o, w.Published sha256 o ∧
    entity.messageId = o.messageId ∧ entity.attemptNumber = 1
  | .repository (.saveDLQEntry _) => False
  | .redis (.setNX _ value) => value = .number 1
  | .redis (.setEx _ _ value) => value = .number 1
  | .redis (.zAdd _ _ member) => ∃ o, w.Published sha256 o ∧ member = o.member
  | .send provider recipient body options message => ∃ o, w.Published sha256 o ∧
    ∀ outcome, o.Sent sha256 ⟨provider, recipient, body, options, message, outcome⟩
  | _ => True

section Steps

variable {sha256 : String → String} {uuid : ℕ → String} {pid : ℕ} {w w' : World} {ev : CallEvent}

theorem genuine_of_fresh (fresh : w.Fresh) : Genuine sha256 w where
  events x hx := by simp [fresh.log] at hx
  rows := by
    have none {r : MessageRow} (hr : r ∈ w.db.rows) : False := List.not_mem_nil (fresh.rows ▸ hr)
    exact ⟨fun r hr => (none hr).elim, fun r hr => (none hr).elim⟩
  inbox x hx := by simp [fresh.inbox] at hx
  attempts a ha := by simp [fresh.attempts] at ha
  dlq := fresh.dlq
  retries x hx := by simp [fresh.zsets] at hx
  cached key entry h := by simp [fresh.strings] at h

/-- A refused statement has no effect. -/
theorem eq_of_refused {statement : Statement} {r : Except JsError statement.Result}
    (answer : w.up uuid pid ⟨.sql (.execute statement), r⟩ w') (refused : statement.check ≠ none) :
    w' = w := by
  obtain ⟨error, hcheck⟩ := Option.ne_none_iff_exists'.mp refused
  obtain ⟨choice, answer⟩ := answer
  simp only [World.answer, Database.answer, Database.execute_of_check _ _ hcheck] at answer
  cases answer
  rfl

/-- A call keeps what its rows keep; a refused statement need not be looked at. -/
theorem holds_of_up {P : MessageRow → Prop} (answer : w.up uuid pid ev w')
    (keeps : (∀ statement, ev.call = .sql (.execute statement) → statement.check = none) →
      KeepsRows P ev.call) (h : w.db.Holds P) : w'.db.Holds P := by
  by_cases hrefused : ∃ statement, ev.call = .sql (.execute statement) ∧ statement.check ≠ none
  · obtain ⟨statement, hcall, refused⟩ := hrefused
    obtain ⟨call, answered⟩ := ev
    obtain rfl : call = .sql (.execute statement) := hcall
    rwa [eq_of_refused answer refused]
  · apply holds_of_lossy (.inl (.inl answer)) (keeps ?_) h
    intro statement hcall
    by_contra refused
    exact hrefused ⟨statement, hcall, refused⟩

theorem holds_of_background {P : MessageRow → Prop} (background : w.Background w')
    (h : w.db.Holds P) : w'.db.Holds P := by
  cases background with
  | rollback conn => exact h.rollback conn
  | redis redis forgets => exact h
  | commit b =>
      unfold World.commit
      split <;> exact h

theorem keepsRows_of_permitted (permitted : Permitted sha256 w ev.call)
    (accepted : ∀ statement, ev.call = .sql (.execute statement) → statement.check = none) :
    KeepsRows (fun r => ∃ o, w.Published sha256 o ∧ o.Stored sha256 r) ev.call := by
  obtain ⟨call, r⟩ := ev
  cases call with
  | sql c =>
      cases c with
      | execute statement =>
          rcases permitted with refused | ⟨_, _, _, rfl⟩ |
            ⟨columns, values, o, rfl, published, hrow⟩
          · exact absurd (accepted statement rfl) refused
          · trivial
          · refine ⟨o, published, _, _, _, .inserted, ?_⟩
            rw [hrow]
            rfl
      | _ => trivial
  | repository c =>
      cases c with
      | updateStatus messageId status finalDelivered attempts =>
          have stage : Origin.Stage status finalDelivered attempts := permitted
          rintro row ⟨o, published, stored⟩
          exact ⟨o, published, stored.updated stage messageId⟩
      | _ => trivial
  | _ => trivial

/-- A statement that is refused, reads, or is an `INSERT` into `messages`. -/
def OnlyInserts (statement : Statement) : Prop :=
  statement.check ≠ none ∨
    (∃ columns keyColumns keys, statement = .select columns keyColumns keys) ∨
    ∃ columns values, statement = .insert .messages columns values

/-- Such statements leave the other tables alone. -/
theorem tables_of_sql {c : SqlCall} {r : Except JsError c.Reply}
    (answer : w.up uuid pid ⟨.sql c, r⟩ w')
    (inserts : ∀ statement, c = .execute statement → OnlyInserts statement) :
    w'.db.dlqEntries = w.db.dlqEntries ∧ w'.db.deliveryAttempts = w.db.deliveryAttempts := by
  cases c with
  | execute statement =>
      by_cases hcheck : statement.check = none
      · obtain ⟨db, hanswer, rfl⟩ := World.up_sql answer
        obtain refused | ⟨columns, keyColumns, keys, rfl⟩ | ⟨columns, values, rfl⟩ :=
          inserts statement rfl
        · exact absurd hcheck refused
        · simp only [Database.answer, Database.execute, hcheck] at hanswer
          cases hanswer
          exact ⟨rfl, rfl⟩
        · simp only [Database.answer, Database.execute, hcheck, Database.insertMessage] at hanswer
          split at hanswer
          · cases hanswer
            exact ⟨rfl, rfl⟩
          · split at hanswer
            · cases hanswer
            · split at hanswer <;> cases hanswer <;> exact ⟨rfl, rfl⟩
      · rw [eq_of_refused answer hcheck]
        exact ⟨rfl, rfl⟩
  | _ =>
      obtain ⟨choice, answer⟩ := answer
      cases answer
      exact ⟨rfl, rfl⟩

/-- Of the tables besides `messages` only the attempts grow. -/
theorem tables_of_permitted {c : Call} {r : Except JsError (Reply c)}
    (answer : w.up uuid pid ⟨c, r⟩ w') (permitted : Permitted sha256 w c) :
    w'.db.dlqEntries = w.db.dlqEntries ∧
      (w'.db.deliveryAttempts = w.db.deliveryAttempts ∨ ∃ entity o,
        w'.db.deliveryAttempts = w.db.deliveryAttempts ++ [entity] ∧ w.Published sha256 o ∧
          entity.messageId = o.messageId ∧ entity.attemptNumber = 1) := by
  cases c with
  | sql c =>
      refine (tables_of_sql answer ?_).imp_right .inl
      rintro statement rfl
      obtain refused | select | ⟨columns, values, o, hinsert, -⟩ := permitted
      · exact .inl refused
      · exact .inr (.inl select)
      · exact .inr (.inr ⟨columns, values, hinsert⟩)
  | repository c =>
      obtain ⟨choice, answer⟩ := answer
      cases c with
      | updateStatus messageId status finalDelivered attempts =>
          simp only [World.answer, Database.repository] at answer
          split at answer <;> cases answer
          exact ⟨rfl, .inl rfl⟩
      | saveAttempt entity =>
          obtain ⟨o, published, hid, hnumber⟩ := permitted
          cases answer
          exact ⟨rfl, .inr ⟨entity, o, rfl, published, hid, hnumber⟩⟩
      | saveDLQEntry entity => exact absurd permitted id
      | getStatus messageId =>
          cases answer
          exact ⟨rfl, .inl rfl⟩
  | _ =>
      obtain ⟨choice, answer⟩ := answer
      cases answer
      exact ⟨rfl, .inl rfl⟩

theorem retries_of_permitted {c : RedisCall} (permitted : Permitted sha256 w (.redis c))
    (h : ∀ x ∈ w.redis.zsets "retries", ∃ o, w.Published sha256 o ∧ x.1 = o.member) :
    ∀ x ∈ (w.redis.answer c).2.zsets "retries", ∃ o, w.Published sha256 o ∧ x.1 = o.member := by
  cases c with
  | setNX key value =>
      rw [Redis.answer]
      split <;> exact h
  | zAdd key score member =>
      obtain ⟨o, published, rfl⟩ := permitted
      by_cases hkey : key = "retries"
      · subst hkey
        intro x hx
        obtain rfl | ⟨hx, -⟩ := Redis.mem_zAdd.mp hx
        · exact ⟨o, published, rfl⟩
        · exact h x hx
      · simpa [Redis.answer, Redis.zAdd, Function.update_of_ne (Ne.symm hkey)] using h
  | zRemRangeByScore key min max =>
      by_cases hkey : key = "retries"
      · subst hkey
        intro x hx
        rw [Redis.answer, Redis.zRemRangeByScore_zsets] at hx
        exact h x (List.mem_of_mem_filter hx)
      · simpa [Redis.answer, Redis.zRemRangeByScore, Function.update_of_ne (Ne.symm hkey)] using h
  | _ => exact h

theorem cached_of_permitted {c : RedisCall} (permitted : Permitted sha256 w (.redis c))
    (h : ∀ key entry, w.redis.strings key = some entry → entry.value = .number 1) :
    ∀ key entry, (w.redis.answer c).2.strings key = some entry → entry.value = .number 1 := by
  have set (key : String) (value : Json) (expiresAt : Option Int) (hvalue : value = .number 1) :
      ∀ key' entry, (w.redis.set key value expiresAt).strings key' = some entry →
        entry.value = .number 1 := by
    intro key' entry hentry
    by_cases hkey : key' = key
    · subst hkey
      simp only [Redis.set, Function.update_self] at hentry
      cases hentry
      exact hvalue
    · simp only [Redis.set, Function.update_of_ne hkey] at hentry
      exact h key' entry hentry
  cases c with
  | setNX key value =>
      rw [Redis.answer]
      split
      · exact h
      · exact set key value none permitted
  | setEx key seconds value => exact set key value _ permitted
  | _ => exact h

theorem Genuine.up (genuine : Genuine sha256 w) {c : Call} {r : Except JsError (Reply c)}
    (answer : w.up uuid pid ⟨c, r⟩ w') (permitted : Permitted sha256 w c) :
    Genuine sha256 w' := by
  have log := (World.grows_of_up answer).log
  have tables := tables_of_permitted answer permitted
  have rows : w'.db.Holds fun r => ∃ o, w'.Published sha256 o ∧ o.Stored sha256 r := by
    have held : w'.db.Holds fun r => ∃ o, w.Published sha256 o ∧ o.Stored sha256 r :=
      holds_of_up answer (keepsRows_of_permitted permitted) genuine.rows
    exact held.mono fun r ⟨o, published, stored⟩ => ⟨o, published.mono log, stored⟩
  constructor
  case rows => exact rows
  case dlq => exact tables.1.trans genuine.dlq
  case events =>
    have stays (x : Record) (hx : x ∈ w.log) (htopic : Ingress.messageTopic x.topic = true) :=
      (genuine.events x hx htopic).imp_right fun ⟨o, published, hvalue⟩ =>
        (⟨o, published.mono log, hvalue⟩ : ∃ o, w'.Published sha256 o ∧ x.value = o.retryEvent)
    obtain hlog | ⟨topic, partition, key, value, headers, rfl, hlog⟩ := log_of_up answer
    · rwa [hlog]
    · intro x hx htopic
      rw [hlog] at hx
      obtain hx | hx := List.mem_append.mp hx
      · exact stays x hx htopic
      · obtain rfl := List.mem_singleton.mp hx
        obtain ⟨o, valid, hrecord⟩ | ⟨o, published, hvalue⟩ := permitted htopic
        · exact .inl ⟨o, valid, hrecord partition⟩
        · exact .inr ⟨o, published.mono log, hvalue⟩
  case inbox =>
    intro x hx
    suffices h : ∃ o, w.Published sha256 o ∧ o.Sent sha256 x by
      obtain ⟨o, published, sent⟩ := h
      exact ⟨o, published.mono log, sent⟩
    obtain hinbox | ⟨provider, recipient, body, options, message, outcome, rfl, hinbox⟩ :=
      inbox_of_up answer
    · exact genuine.inbox x (hinbox ▸ hx)
    · rw [hinbox] at hx
      obtain hx | hx := List.mem_append.mp hx
      · exact genuine.inbox x hx
      · obtain rfl := List.mem_singleton.mp hx
        obtain ⟨o, published, sent⟩ := permitted
        exact ⟨o, published, sent outcome⟩
  case attempts =>
    intro a ha
    suffices h : ∃ o, w.Published sha256 o ∧ a.messageId = o.messageId ∧ a.attemptNumber = 1 by
      obtain ⟨o, published, hattempt⟩ := h
      exact ⟨o, published.mono log, hattempt⟩
    obtain hattempts | ⟨entity, o, hattempts, hentity⟩ := tables.2
    · exact genuine.attempts a (hattempts ▸ ha)
    · rw [hattempts] at ha
      obtain ha | ha := List.mem_append.mp ha
      · exact genuine.attempts a ha
      · obtain rfl := List.mem_singleton.mp ha
        exact ⟨o, hentity⟩
  case retries =>
    intro x hx
    suffices h : ∃ o, w.Published sha256 o ∧ x.1 = o.member by
      obtain ⟨o, published, hmember⟩ := h
      exact ⟨o, published.mono log, hmember⟩
    obtain hredis | ⟨command, rfl, hredis⟩ := redis_of_up answer
    · exact genuine.retries x (hredis ▸ hx)
    · exact retries_of_permitted permitted genuine.retries x (hredis ▸ hx)
  case cached =>
    obtain hredis | ⟨command, rfl, hredis⟩ := redis_of_up answer
    · rw [hredis]
      exact genuine.cached
    · rw [hredis]
      exact cached_of_permitted permitted genuine.cached

theorem Genuine.lossy (genuine : Genuine sha256 w) (answer : w.lossy uuid pid ev w')
    (permitted : Permitted sha256 w ev.call) : Genuine sha256 w' := by
  obtain rfl | ⟨r, answer⟩ := effect_of_lossy answer
  · exact genuine
  · exact genuine.up answer permitted

theorem Genuine.background (genuine : Genuine sha256 w) (h : w.Background w') :
    Genuine sha256 w' := by
  cases h with
  | rollback conn => exact { genuine with rows := genuine.rows.rollback conn }
  | redis redis forgets =>
      exact
        { genuine with
          retries := fun x hx => genuine.retries x ((forgets.zsets "retries").subset hx)
          cached := by
            intro key entry hentry
            obtain hnone | hsame := forgets.strings key
            · exact absurd (hnone.symm.trans hentry) (by simp)
            · exact genuine.cached key entry (hsame.symm.trans hentry) }
  | commit b =>
      unfold World.commit
      split
      · exact genuine
      · exact { genuine with }

end Steps

end Notification
