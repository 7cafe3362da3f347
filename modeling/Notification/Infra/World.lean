import Notification.Infra.MySql
import Notification.Infra.Redis
import Notification.Interaction.Pool
import Notification.Js.Number

/-!
# Everything outside of the services, and the calls into it

The world holds the database, Redis, the Kafka topics and what the providers have
been asked to send. A call is answered from the world; where the answer is not
determined by it (the provider's outcome, the clock, the partition a record is
written to) it depends on a `Choice`.

In the environment `up` every call is answered so. In `faulty` a call may also
throw, and then it has had no effect. In `lossy` it may throw and have had it.
-/

namespace Notification

open Interaction

/-- A record on a Kafka topic. The value is the JSON that was stringified. -/
structure Record where
  topic : String
  partition : ℕ
  key : Option Json
  value : Json
  headers : List (String × String) := []

/-- One call of a provider: what was sent, for which message, with which outcome. -/
structure Sending where
  provider : String
  recipient : String
  body : String
  options : IdempotencyOptions
  message : MessageToDeliver
  outcome : Except JsError ProviderResult

/-- `log` lists the records of all topics in the order they were produced,
`inbox` the provider calls in order; `resolved` are the offsets that
`resolveOffset` was called with and `committed` the group's committed offsets. -/
structure World where
  db : Database := {}
  redis : Redis := {}
  log : List Record := []
  inbox : List Sending := []
  uuids : ℕ := 0
  resolved : List ℕ := []
  committed : String → ℕ → ℕ := fun _ _ => 0

/-- The external calls of the services. The `message` of a `send` is no argument
of the source's `send`: it says for which message the call is made, and only the
inbox keeps it. `stringify` is `JSON.stringify` of a provider's response: whether
it can be printed is known outside only. -/
inductive Call where
  | sql (c : SqlCall)
  | repository (c : RepositoryCall)
  | redis (c : RedisCall)
  | produce (topic : String) (key : Option Json) (value : Json) (headers : List (String × String))
  | send (provider recipient body : String) (options : IdempotencyOptions)
      (message : MessageToDeliver)
  | stringify (response : Option String)
  | now
  | uuidv4
  | heartbeat
  | resolveOffset (offset : ℕ)

abbrev Reply : Call → Type
  | .sql c => c.Reply
  | .repository c => c.Reply
  | .redis c => c.Reply
  | .produce .. => Unit
  | .send .. => ProviderResult
  | .stringify _ => Option String
  | .now => Int
  | .uuidv4 => String
  | .heartbeat => Unit
  | .resolveOffset _ => Unit

/-- A program of the services. -/
abbrev Prog (α : Type) := Program Reply JsError α

/-- What happened in one external call. -/
abbrev CallEvent := Event Reply JsError

/-- The answer to a call that cannot fail by itself is no error. A statement can be
refused and a provider can fail. -/
def Succeeds : CallEvent → Prop
  | ⟨.sql (.execute _), _⟩ => True
  | ⟨.send .., _⟩ => True
  | ⟨_, r⟩ => ∃ a, r = .ok a

/-- The longest delay that a failed attempt is retried after. -/
def longestDelay : ℕ := 300000

/-- What `Date.now()` returns. It is a date, and so is the time of a retry that is scheduled
then. -/
structure Clock where
  time : ℕ
  timely : time + longestDelay ≤ maxTimeValue

theorem early_epoch : 0 + longestDelay ≤ maxTimeValue := by decide

def Clock.epoch : Clock := ⟨0, early_epoch⟩

/-- The clock at a time, unless that is too late. -/
def Clock.ofTime (time : ℕ) : Clock :=
  if early : time + longestDelay ≤ maxTimeValue then ⟨time, early⟩ else .epoch

theorem Clock.add (now : Clock) {delay : Int} (nonneg : 0 ≤ delay) (short : delay ≤ longestDelay) :
    Number.add now.time delay = now.time + delay := by
  have timely := now.timely
  apply Number.add_of_le
  rw [Number.exactLimit]
  rw [maxTimeValue] at timely
  omega

/-- A retry that is scheduled now has a date. -/
theorem Clock.toISOString_add (now : Clock) {delay : Int} (nonneg : 0 ≤ delay)
    (short : delay ≤ longestDelay) : toISOString (now.time + delay) = .ok () := by
  have timely := now.timely
  exact toISOString_of_le (by omega)

/-- The part of an answer that the world does not determine. -/
structure Choice where
  outcome : Except JsError ProviderResult
  now : Clock := .epoch
  partition : ℕ := 0

namespace World

/-- The answer to a call made by process `pid`; `none` means that the call waits.
The process number stands for the process's database connection. -/
def answer (uuid : ℕ → String) (pid : ℕ) (choice : Choice) (w : World) :
    (c : Call) → Option (Except JsError (Reply c) × World)
  | .sql c => (w.db.answer pid c).map fun (r, db) => (r, { w with db := db })
  | .repository c => (w.db.repository c).map fun (r, db) => (r, { w with db := db })
  | .redis c => some ((w.redis.answer c).1, { w with redis := (w.redis.answer c).2 })
  | .produce topic key value headers =>
    some (.ok (), { w with log := w.log ++ [⟨topic, choice.partition, key, value, headers⟩] })
  | .send provider recipient body options message =>
    some (choice.outcome, { w with inbox := w.inbox ++
      [⟨provider, recipient, body, options, message, choice.outcome⟩] })
  | .stringify response => some (.ok response, w)
  | .now => some (.ok choice.now.time, w)
  | .uuidv4 => some (.ok (uuid w.uuids), { w with uuids := w.uuids + 1 })
  | .heartbeat => some (.ok (), w)
  | .resolveOffset offset => some (.ok (), { w with resolved := w.resolved ++ [offset] })

/-- Every infrastructure call succeeds. -/
def up (uuid : ℕ → String) (pid : ℕ) : Env Reply JsError World :=
  fun w ev w' => ∃ choice, w.answer uuid pid choice ev.call = some (ev.answer, w')

theorem up_of_answer {uuid : ℕ → String} {pid : ℕ} {choice : Choice} {w w' : World} {c : Call}
    {r : Except JsError (Reply c)} (h : w.answer uuid pid choice c = some (r, w')) :
    w.up uuid pid ⟨c, r⟩ w' := ⟨choice, h⟩

/-- The calls over the network to MySQL, Redis and Kafka, and the printing of a
response, which throws if there is a cycle in it. A provider call is not among
them: how it fails is part of the choice, and the inbox keeps the attempt. -/
def external : Call → Bool
  | .sql .release => false
  | .now => false
  | .uuidv4 => false
  | .resolveOffset _ => false
  | .send .. => false
  | _ => true

theorem up_succeeds {uuid : ℕ → String} {pid : ℕ} {w w' : World} {ev : CallEvent}
    (h : w.up uuid pid ev w') : Succeeds ev := by
  obtain ⟨call, answer⟩ := ev
  obtain ⟨choice, h⟩ := h
  cases call with
  | sql c =>
      cases c with
      | execute statement => trivial
      | _ =>
          simp only [World.answer, Database.answer, Option.map_some, Option.some.injEq,
            Prod.mk.injEq] at h
          exact ⟨_, h.1.symm⟩
  | repository c =>
      cases c with
      | updateStatus messageId status finalDelivered attempts =>
          simp only [World.answer, Database.repository] at h
          split at h
          · cases h
          · simp only [Option.map_some, Option.some.injEq, Prod.mk.injEq] at h
            exact ⟨_, h.1.symm⟩
      | _ =>
          simp only [World.answer, Database.repository, Option.map_some, Option.some.injEq,
            Prod.mk.injEq] at h
          exact ⟨_, h.1.symm⟩
  | redis c =>
      obtain ⟨a, ha⟩ := w.redis.answer_ok c
      simp only [World.answer, Option.some.injEq, Prod.mk.injEq] at h
      exact ⟨a, h.1.symm.trans ha⟩
  | send provider recipient body options message => trivial
  | _ =>
      simp only [World.answer, Option.some.injEq, Prod.mk.injEq] at h
      exact ⟨_, h.1.symm⟩

/-- Every external call may throw instead, and then nothing has changed. -/
def faulty (uuid : ℕ → String) (pid : ℕ) : Env Reply JsError World :=
  fun w ev w' => up uuid pid w ev w' ∨
    (external ev.call = true ∧ w' = w ∧ ∃ e, ev.answer = .error e)

/-- Any call over the network may throw, before it has had its effect or after. -/
def lossy (uuid : ℕ → String) (pid : ℕ) : Env Reply JsError World :=
  fun w ev w' => w.faulty uuid pid ev w' ∨
    (external ev.call = true ∧ (∃ e, ev.answer = .error e) ∧
      ∃ r, w.up uuid pid ⟨ev.call, r⟩ w')

theorem lossy_of_answer {uuid : ℕ → String} {pid : ℕ} {choice : Choice} {w w' : World} {c : Call}
    {r : Except JsError (Reply c)} (h : w.answer uuid pid choice c = some (r, w')) :
    w.lossy uuid pid ⟨c, r⟩ w' := .inl (.inl (up_of_answer h))

/-- Redis's clock moves on. -/
def later (w w' : World) : Prop :=
  ∃ t, w.redis.time ≤ t ∧ w' = { w with redis := { w.redis with time := t } }

/-- Outside of SQL statements only `updateStatus` changes rows, those with its id. -/
theorem rows_of_up {uuid : ℕ → String} {pid : ℕ} {w w' : World} {ev : CallEvent}
    (h : w.up uuid pid ev w') (notSql : ∀ c, ev.call ≠ .sql c) :
    w'.db.pending = w.db.pending ∧ w'.db.inTransaction = w.db.inTransaction ∧
      ((w'.db.messages = w.db.messages ∧ ∀ messageId status finalDelivered attempts,
          ev.call ≠ .repository (.updateStatus messageId status finalDelivered attempts)) ∨
        ∃ messageId status finalDelivered attempts,
          ev = ⟨.repository (.updateStatus messageId status finalDelivered attempts), .ok ()⟩ ∧
          (∀ p ∈ w.db.pending, p.2.messageId ≠ messageId) ∧
          w'.db.messages =
            (w.db.updateStatus messageId status finalDelivered attempts).messages) := by
  obtain ⟨call, answer⟩ := ev
  obtain ⟨choice, h⟩ := h
  cases call with
  | sql c => exact absurd rfl (notSql c)
  | repository c =>
      cases c with
      | updateStatus messageId status finalDelivered attempts =>
          simp only [World.answer, Database.repository] at h
          split at h
          · cases h
          · next idle =>
              simp only [Option.map_some, Option.some.injEq, Prod.mk.injEq] at h
              obtain ⟨rfl, rfl⟩ := h
              exact ⟨rfl, rfl, .inr ⟨_, _, _, _, rfl, by simpa using idle, rfl⟩⟩
      | _ =>
          cases h
          exact ⟨rfl, rfl, .inl ⟨rfl, fun _ _ _ _ h => by cases h⟩⟩
  | _ =>
      cases h
      exact ⟨rfl, rfl, .inl ⟨rfl, fun _ _ _ _ h => by cases h⟩⟩

section Faulty

variable {uuid : ℕ → String} {pid : ℕ} {w w' : World}

theorem faulty_uuidv4 {r : Except JsError String} (h : w.faulty uuid pid ⟨.uuidv4, r⟩ w') :
    r = .ok (uuid w.uuids) ∧ w' = { w with uuids := w.uuids + 1 } := by
  obtain ⟨choice, h⟩ | ⟨h, -⟩ := h
  · cases h
    exact ⟨rfl, rfl⟩
  · cases h

theorem faulty_redis {c : RedisCall} {r : Except JsError c.Reply}
    (h : w.faulty uuid pid ⟨.redis c, r⟩ w') :
    (r = (w.redis.answer c).1 ∧ w' = { w with redis := (w.redis.answer c).2 }) ∨
      (w' = w ∧ ∃ e, r = .error e) := by
  obtain ⟨choice, h⟩ | ⟨-, h⟩ := h
  · cases h
    exact .inl ⟨rfl, rfl⟩
  · exact .inr h

theorem faulty_produce {topic : String} {key : Option Json} {value : Json}
    {headers : List (String × String)} {r : Except JsError Unit}
    (h : w.faulty uuid pid ⟨.produce topic key value headers, r⟩ w') :
    (r = .ok () ∧ ∃ partition,
      w' = { w with log := w.log ++ [⟨topic, partition, key, value, headers⟩] }) ∨
      (w' = w ∧ ∃ e, r = .error e) := by
  obtain ⟨choice, h⟩ | ⟨-, h⟩ := h
  · cases h
    exact .inl ⟨rfl, _, rfl⟩
  · exact .inr h

theorem up_sql {c : SqlCall} {r : Except JsError c.Reply} (h : w.up uuid pid ⟨.sql c, r⟩ w') :
    ∃ db, w.db.answer pid c = some (r, db) ∧ w' = { w with db := db } := by
  obtain ⟨choice, h⟩ := h
  obtain ⟨⟨r', db⟩, hanswer, heq⟩ := Option.map_eq_some_iff.mp h
  cases heq
  exact ⟨db, hanswer, rfl⟩

theorem faulty_repository {c : RepositoryCall} {r : Except JsError c.Reply}
    (h : w.faulty uuid pid ⟨.repository c, r⟩ w') :
    (∃ db, w.db.repository c = some (r, db) ∧ w' = { w with db := db }) ∨
      (w' = w ∧ ∃ e, r = .error e) := by
  obtain ⟨choice, h⟩ | ⟨-, h⟩ := h
  · obtain ⟨⟨r', db⟩, hanswer, heq⟩ := Option.map_eq_some_iff.mp h
    cases heq
    exact .inl ⟨db, hanswer, rfl⟩
  · exact .inr h

theorem faulty_updateStatus {messageId : String} {status : Status} {finalDelivered : Bool}
    {attempts : Int} {r : Except JsError Unit}
    (h : w.faulty uuid pid
      ⟨.repository (.updateStatus messageId status finalDelivered attempts), r⟩ w') :
    (r = .ok () ∧
        w' = { w with db := w.db.updateStatus messageId status finalDelivered attempts }) ∨
      (w' = w ∧ ∃ e, r = .error e) := by
  obtain ⟨db, hanswer, rfl⟩ | h := faulty_repository h
  · simp only [Database.repository] at hanswer
    split at hanswer <;> cases hanswer
    exact .inl ⟨rfl, rfl⟩
  · exact .inr h

theorem faulty_send {provider recipient body : String} {options : IdempotencyOptions}
    {m : MessageToDeliver} {r : Except JsError ProviderResult}
    (h : w.faulty uuid pid ⟨.send provider recipient body options m, r⟩ w') :
    w' = { w with inbox := w.inbox ++ [⟨provider, recipient, body, options, m, r⟩] } := by
  obtain ⟨choice, h⟩ | ⟨h, -⟩ := h
  · cases h
    rfl
  · cases h

theorem faulty_now {r : Except JsError Int} (h : w.faulty uuid pid ⟨.now, r⟩ w') :
    w' = w ∧ ∃ now : Clock, r = .ok now.time := by
  obtain ⟨choice, h⟩ | ⟨h, -⟩ := h
  · cases h
    exact ⟨rfl, choice.now, rfl⟩
  · cases h

/-- A call that does not throw is answered from the world. -/
theorem up_of_ok {c : Call} {a : Reply c} (h : w.faulty uuid pid ⟨c, .ok a⟩ w') :
    w.up uuid pid ⟨c, .ok a⟩ w' := by
  obtain h | ⟨-, -, e, he⟩ := h
  · exact h
  · cases he

/-- What a call has done does not depend on whether its answer arrives. -/
theorem effect_of_lossy {c : Call} {r : Except JsError (Reply c)}
    (h : w.lossy uuid pid ⟨c, r⟩ w') :
    ∃ r', w.faulty uuid pid ⟨c, r'⟩ w' ∧ (r' = r ∨ ∃ e, r = .error e) := by
  obtain h | ⟨-, failed, r', h⟩ := h
  · exact ⟨r, h, .inl rfl⟩
  · exact ⟨r', .inl h, .inr failed⟩

theorem up_of_lossy_ok {c : Call} {a : Reply c} (h : w.lossy uuid pid ⟨c, .ok a⟩ w') :
    w.up uuid pid ⟨c, .ok a⟩ w' := by
  obtain h | ⟨-, ⟨e, he⟩, -⟩ := h
  · exact up_of_ok h
  · cases he

theorem lossy_updateStatus {messageId : String} {status : Status} {finalDelivered : Bool}
    {attempts : Int} {r : Except JsError Unit}
    (h : w.lossy uuid pid
      ⟨.repository (.updateStatus messageId status finalDelivered attempts), r⟩ w') :
    w' = { w with db := w.db.updateStatus messageId status finalDelivered attempts } ∨
      (w' = w ∧ ∃ e, r = .error e) := by
  obtain ⟨r', h, same⟩ := effect_of_lossy h
  obtain ⟨-, heffect⟩ | ⟨rfl, failed⟩ := faulty_updateStatus h
  · exact .inl heffect
  · exact .inr ⟨rfl, same.elim (fun heq => heq ▸ failed) id⟩

theorem lossy_redis {c : RedisCall} {r : Except JsError c.Reply}
    (h : w.lossy uuid pid ⟨.redis c, r⟩ w') :
    w' = { w with redis := (w.redis.answer c).2 } ∨ (w' = w ∧ ∃ e, r = .error e) := by
  obtain ⟨r', h, same⟩ := effect_of_lossy h
  obtain ⟨-, heffect⟩ | ⟨rfl, failed⟩ := faulty_redis h
  · exact .inl heffect
  · exact .inr ⟨rfl, same.elim (fun heq => heq ▸ failed) id⟩

theorem lossy_produce {topic : String} {key : Option Json} {value : Json}
    {headers : List (String × String)} {r : Except JsError Unit}
    (h : w.lossy uuid pid ⟨.produce topic key value headers, r⟩ w') :
    (∃ partition, w' = { w with log := w.log ++ [⟨topic, partition, key, value, headers⟩] }) ∨
      (w' = w ∧ ∃ e, r = .error e) := by
  obtain ⟨r', h, same⟩ := effect_of_lossy h
  obtain ⟨-, heffect⟩ | ⟨rfl, failed⟩ := faulty_produce h
  · exact .inl heffect
  · exact .inr ⟨rfl, same.elim (fun heq => heq ▸ failed) id⟩

/-- Whether a response can be printed or not, nothing has changed. -/
theorem lossy_stringify {response : Option String} {r : Except JsError (Option String)}
    (h : w.lossy uuid pid ⟨.stringify response, r⟩ w') : w' = w := by
  obtain ⟨r', ⟨choice, h⟩ | ⟨-, h, -⟩, -⟩ := effect_of_lossy h
  · cases h
    rfl
  · exact h

/-- A call that is none over the network is answered. -/
theorem faulty_of_lossy {c : Call} {r : Except JsError (Reply c)} (isInternal : external c = false)
    (h : w.lossy uuid pid ⟨c, r⟩ w') : w.faulty uuid pid ⟨c, r⟩ w' := by
  obtain h | ⟨isExternal, -⟩ := h
  · exact h
  · rw [isInternal] at isExternal
    cases isExternal

/-- Only the commands of Redis change it. -/
theorem faulty_redis_eq {ev : CallEvent} (h : w.faulty uuid pid ev w')
    (notRedis : ∀ c, ev.call ≠ .redis c) : w'.redis = w.redis := by
  obtain ⟨choice, h⟩ | ⟨-, rfl, -⟩ := h
  · obtain ⟨call, r⟩ := ev
    cases call with
    | sql c =>
        obtain ⟨out, -, heq⟩ := Option.map_eq_some_iff.mp h
        cases heq
        rfl
    | repository c =>
        obtain ⟨out, -, heq⟩ := Option.map_eq_some_iff.mp h
        cases heq
        rfl
    | redis c => exact absurd rfl (notRedis c)
    | _ =>
        cases h
        rfl
  · rfl

theorem lossy_redis_eq {ev : CallEvent} (h : w.lossy uuid pid ev w')
    (notRedis : ∀ c, ev.call ≠ .redis c) : w'.redis = w.redis := by
  obtain ⟨r', h, -⟩ := effect_of_lossy h
  exact faulty_redis_eq h notRedis

end Faulty

/-- Calls answered in turn, except that those in `broken` throw if they can. -/
def brokenAnswer (broken : Call → Bool) (uuid : ℕ → String) (pid : ℕ) (choice : Choice) (w : World)
    (c : Call) : Option (Except JsError (Reply c) × World) :=
  if external c && broken c then some (.error { message := "timeout" }, w)
  else w.answer uuid pid choice c

theorem faulty_brokenAnswer {broken : Call → Bool} {uuid : ℕ → String} {pid : ℕ} {choice : Choice}
    {w w' : World} {c : Call} {r : Except JsError (Reply c)}
    (h : w.brokenAnswer broken uuid pid choice c = some (r, w')) : w.faulty uuid pid ⟨c, r⟩ w' := by
  unfold brokenAnswer at h
  split at h
  · next hbroken =>
      cases h
      exact .inr ⟨(Bool.and_eq_true_iff.mp hbroken).1, rfl, _, rfl⟩
  · exact .inl ⟨choice, h⟩

/-- A handler for sequential runs. A statement that would have to wait for
another transaction ends with MySQL's lock wait timeout. -/
def handler (uuid : ℕ → String) (choose : World → Choice) (c : Call) (w : World) :
    Except JsError (Reply c) × World :=
  (w.answer uuid 0 (choose w) c).getD (.error SqlError.lockWaitTimeout, w)

/-- Only statements and updates wait. -/
theorem external_of_waits {uuid : ℕ → String} {pid : ℕ} {choice : Choice} {w : World} {c : Call}
    (h : w.answer uuid pid choice c = none) : external c = true ∧ c ≠ .sql .rollback := by
  cases c with
  | sql c =>
      cases c with
      | execute statement => exact ⟨rfl, by simp⟩
      | _ => simp [World.answer, Database.answer] at h
  | repository c => exact ⟨rfl, by simp⟩
  | _ => simp [World.answer] at h

/-- Sequential runs are among those of the environment with failures. -/
theorem faulty_handler (uuid : ℕ → String) (choose : World → Choice) (c : Call) (w : World) :
    w.faulty uuid 0 ⟨c, (handler uuid choose c w).1⟩ (handler uuid choose c w).2 := by
  unfold handler
  cases h : w.answer uuid 0 (choose w) c with
  | some out => exact .inl ⟨choose w, h⟩
  | none => exact .inr ⟨(external_of_waits h).1, rfl, _, rfl⟩

/-- A handler for sequential runs in which the calls in `broken` throw if they can. -/
def brokenHandler (broken : Call → Bool) (uuid : ℕ → String) (choose : World → Choice) (c : Call)
    (w : World) : Except JsError (Reply c) × World :=
  (w.brokenAnswer broken uuid 0 (choose w) c).getD (.error SqlError.lockWaitTimeout, w)

theorem faulty_brokenHandler (broken : Call → Bool) (uuid : ℕ → String) (choose : World → Choice)
    (c : Call) (w : World) : w.faulty uuid 0 ⟨c, (brokenHandler broken uuid choose c w).1⟩
      (brokenHandler broken uuid choose c w).2 := by
  unfold brokenHandler
  cases h : w.brokenAnswer broken uuid 0 (choose w) c with
  | some out => exact faulty_brokenAnswer h
  | none =>
      have waits : w.answer uuid 0 (choose w) c = none := by
        unfold brokenAnswer at h
        split at h
        · cases h
        · exact h
      exact .inr ⟨(external_of_waits waits).1, rfl, _, rfl⟩

/-- A call that is not broken is answered. -/
theorem brokenHandler_of_sound {broken : Call → Bool} {uuid : ℕ → String} {choose : World → Choice}
    {c : Call} {w : World} (sound : broken c = false) :
    brokenHandler broken uuid choose c w = handler uuid choose c w := by
  rw [brokenHandler, brokenAnswer, sound, Bool.and_false]
  rfl

theorem brokenHandler_of_broken {broken : Call → Bool} {uuid : ℕ → String} {choose : World → Choice}
    {c : Call} {w : World} (isExternal : external c = true) (h : broken c = true) :
    brokenHandler broken uuid choose c w = (.error { message := "timeout" }, w) := by
  rw [brokenHandler, brokenAnswer, isExternal, h]
  rfl

end World

/-! ## The clients of the services -/

namespace Connection

def getConnection : Prog Unit := Program.perform (Call.sql .getConnection)

def beginTransaction : Prog Unit := Program.perform (Call.sql .beginTransaction)

def execute (statement : Statement) : Prog statement.Result :=
  Program.perform (Call.sql (.execute statement))

def commit : Prog Unit := Program.perform (Call.sql .commit)

def rollback : Prog Unit := Program.perform (Call.sql .rollback)

def release : Prog Unit := Program.perform (Call.sql .release)

end Connection

namespace RedisClient

def «exists» (key : String) : Prog ℕ := Program.perform (Call.redis (.exists key))

def setNX (key : String) (value : Json) : Prog Bool :=
  Program.perform (Call.redis (.setNX key value))

def setEx (key : String) (seconds : Int) (value : Json) : Prog Unit :=
  Program.perform (Call.redis (.setEx key seconds value))

def get (key : String) : Prog (Option Json) := Program.perform (Call.redis (.get key))

def zAdd (key : String) (score : Int) (member : String) : Prog Unit :=
  Program.perform (Call.redis (.zAdd key score member))

def zRangeByScore (key : String) (min max : Int) : Prog (List String) :=
  Program.perform (Call.redis (.zRangeByScore key min max))

def zRemRangeByScore (key : String) (min max : Int) : Prog ℕ :=
  Program.perform (Call.redis (.zRemRangeByScore key min max))

end RedisClient

/-- `producer.send` with a single record. -/
def produce (topic : String) (key : Option Json) (value : Json)
    (headers : List (String × String) := []) : Prog Unit :=
  Program.perform (Call.produce topic key value headers)

def uuidv4 : Prog String := Program.perform Call.uuidv4

/-- `JSON.stringify(result.response)` -/
def stringify (response : Option String) : Prog (Option String) :=
  Program.perform (Call.stringify response)

/-- `Date.now()` -/
def dateNow : Prog Int := Program.perform Call.now

/-! ## Sequential runs of single calls -/

section Run

variable (uuid : ℕ → String) (choose : World → Choice) (w : World)

@[simp] theorem run_uuidv4 : uuidv4.run (World.handler uuid choose) w =
    (.ok (uuid w.uuids), { w with uuids := w.uuids + 1 }) := rfl

@[simp] theorem run_stringify (response : Option String) :
    (stringify response).run (World.handler uuid choose) w = (.ok response, w) := rfl

@[simp] theorem run_dateNow :
    dateNow.run (World.handler uuid choose) w = (.ok ((choose w).now.time : Int), w) := rfl

@[simp] theorem run_produce (topic : String) (key : Option Json) (value : Json)
    (headers : List (String × String)) :
    (produce topic key value headers).run (World.handler uuid choose) w =
      (.ok (), { w with log := w.log ++ [⟨topic, (choose w).partition, key, value, headers⟩] }) :=
  rfl

namespace RedisClient

@[simp] theorem run_exists (key : String) :
    (RedisClient.exists key).run (World.handler uuid choose) w =
      (.ok (if (w.redis.live key).isSome then 1 else 0), w) := rfl

@[simp] theorem run_setNX (key : String) (value : Json) :
    (setNX key value).run (World.handler uuid choose) w =
      if (w.redis.live key).isSome then (.ok false, w)
      else (.ok true, { w with redis := w.redis.set key value none }) := by
  by_cases h : (w.redis.live key).isSome <;>
    simp [setNX, World.handler, World.answer, Redis.answer, h]

@[simp] theorem run_setEx (key : String) (seconds : Int) (value : Json) :
    (setEx key seconds value).run (World.handler uuid choose) w =
      (.ok (), { w with redis := w.redis.set key value (some (w.redis.time + seconds)) }) := rfl

@[simp] theorem run_get (key : String) :
    (get key).run (World.handler uuid choose) w =
      (.ok ((w.redis.live key).map RedisEntry.value), w) := rfl

@[simp] theorem run_zAdd (key : String) (score : Int) (member : String) :
    (zAdd key score member).run (World.handler uuid choose) w =
      (.ok (), { w with redis := w.redis.zAdd key score member }) := rfl

@[simp] theorem run_zRangeByScore (key : String) (min max : Int) :
    (zRangeByScore key min max).run (World.handler uuid choose) w =
      (.ok (((w.redis.zsets key).filter (Redis.inRange min max)).map Prod.fst), w) := rfl

@[simp] theorem run_zRemRangeByScore (key : String) (min max : Int) :
    (zRemRangeByScore key min max).run (World.handler uuid choose) w =
      (.ok ((w.redis.zsets key).filter (Redis.inRange min max)).length,
        { w with redis := w.redis.zRemRangeByScore key min max }) := rfl

end RedisClient

namespace Connection

@[simp] theorem run_getConnection :
    getConnection.run (World.handler uuid choose) w = (.ok (), w) := rfl

@[simp] theorem run_beginTransaction :
    beginTransaction.run (World.handler uuid choose) w =
      (.ok (), { w with db := { w.db with inTransaction := 0 :: w.db.inTransaction } }) := rfl

@[simp] theorem run_commit :
    commit.run (World.handler uuid choose) w = (.ok (), { w with db := w.db.commit 0 }) := rfl

@[simp] theorem run_rollback :
    rollback.run (World.handler uuid choose) w = (.ok (), { w with db := w.db.rollback 0 }) := rfl

@[simp] theorem run_release :
    release.run (World.handler uuid choose) w = (.ok (), w) := rfl

/-- A statement that the schema refuses. -/
theorem run_execute_refused {statement : Statement} {e : JsError}
    (refused : statement.check = some e) :
    (execute statement).run (World.handler uuid choose) w = (.error e, w) := by
  have hexecute : w.db.execute 0 statement = some (.error e, w.db) := by
    cases statement <;> simp only [Database.execute, refused]
  simp only [execute, Program.run_perform, World.handler, World.answer, Database.answer, hexecute]
  rfl

theorem run_execute_select {columns keyColumns : List String} {keys : List (List Expr)}
    (accepted : (Statement.select columns keyColumns keys).check = none) :
    (execute (.select columns keyColumns keys)).run (World.handler uuid choose) w =
      (.ok (w.db.selectMessages keyColumns keys), w) := by
  simp only [execute, Program.run_perform, World.handler, World.answer, Database.answer,
    Database.execute, accepted]
  rfl

end Connection

end Run

/-! ## What single calls record -/

section Record

variable {ok : CallEvent → Prop} {T : Trace Reply JsError → Prop} {t : Trace Reply JsError}

theorem wp_uuidv4 {Q : Except JsError String → Trace Reply JsError → Prop} :
    uuidv4.wp (recording ok) T Q t ↔
      ∀ r, ok ⟨.uuidv4, r⟩ → T (⟨.uuidv4, r⟩ :: t) ∧ Q r (⟨.uuidv4, r⟩ :: t) :=
  Program.wp_step_recording

theorem wp_stringify {response : Option String}
    {Q : Except JsError (Option String) → Trace Reply JsError → Prop} :
    (stringify response).wp (recording ok) T Q t ↔
      ∀ r, ok ⟨.stringify response, r⟩ →
        T (⟨.stringify response, r⟩ :: t) ∧ Q r (⟨.stringify response, r⟩ :: t) :=
  Program.wp_step_recording

theorem wp_dateNow {Q : Except JsError Int → Trace Reply JsError → Prop} :
    dateNow.wp (recording ok) T Q t ↔
      ∀ r, ok ⟨.now, r⟩ → T (⟨.now, r⟩ :: t) ∧ Q r (⟨.now, r⟩ :: t) :=
  Program.wp_step_recording

theorem wp_produce {topic : String} {key : Option Json} {value : Json}
    {headers : List (String × String)} {Q : Except JsError Unit → Trace Reply JsError → Prop} :
    (produce topic key value headers).wp (recording ok) T Q t ↔
      ∀ r, ok ⟨.produce topic key value headers, r⟩ →
        T (⟨.produce topic key value headers, r⟩ :: t) ∧
        Q r (⟨.produce topic key value headers, r⟩ :: t) :=
  Program.wp_step_recording

theorem RedisClient.wp_exists {key : String} {Q : Except JsError ℕ → Trace Reply JsError → Prop} :
    (RedisClient.exists key).wp (recording ok) T Q t ↔
      ∀ r, ok ⟨.redis (.exists key), r⟩ →
        T (⟨.redis (.exists key), r⟩ :: t) ∧ Q r (⟨.redis (.exists key), r⟩ :: t) :=
  Program.wp_step_recording

theorem RedisClient.wp_setNX {key : String} {value : Json}
    {Q : Except JsError Bool → Trace Reply JsError → Prop} :
    (setNX key value).wp (recording ok) T Q t ↔
      ∀ r, ok ⟨.redis (.setNX key value), r⟩ →
        T (⟨.redis (.setNX key value), r⟩ :: t) ∧ Q r (⟨.redis (.setNX key value), r⟩ :: t) :=
  Program.wp_step_recording

theorem RedisClient.wp_get {key : String}
    {Q : Except JsError (Option Json) → Trace Reply JsError → Prop} :
    (get key).wp (recording ok) T Q t ↔
      ∀ r, ok ⟨.redis (.get key), r⟩ →
        T (⟨.redis (.get key), r⟩ :: t) ∧ Q r (⟨.redis (.get key), r⟩ :: t) :=
  Program.wp_step_recording

theorem RedisClient.wp_setEx {key : String} {seconds : Int} {value : Json}
    {Q : Except JsError Unit → Trace Reply JsError → Prop} :
    (setEx key seconds value).wp (recording ok) T Q t ↔
      ∀ r, ok ⟨.redis (.setEx key seconds value), r⟩ →
        T (⟨.redis (.setEx key seconds value), r⟩ :: t) ∧
        Q r (⟨.redis (.setEx key seconds value), r⟩ :: t) :=
  Program.wp_step_recording

theorem RedisClient.wp_zAdd {key : String} {score : Int} {member : String}
    {Q : Except JsError Unit → Trace Reply JsError → Prop} :
    (zAdd key score member).wp (recording ok) T Q t ↔
      ∀ r, ok ⟨.redis (.zAdd key score member), r⟩ →
        T (⟨.redis (.zAdd key score member), r⟩ :: t) ∧
        Q r (⟨.redis (.zAdd key score member), r⟩ :: t) :=
  Program.wp_step_recording

theorem RedisClient.wp_zRangeByScore {key : String} {min max : Int}
    {Q : Except JsError (List String) → Trace Reply JsError → Prop} :
    (zRangeByScore key min max).wp (recording ok) T Q t ↔
      ∀ r, ok ⟨.redis (.zRangeByScore key min max), r⟩ →
        T (⟨.redis (.zRangeByScore key min max), r⟩ :: t) ∧
        Q r (⟨.redis (.zRangeByScore key min max), r⟩ :: t) :=
  Program.wp_step_recording

theorem RedisClient.wp_zRemRangeByScore {key : String} {min max : Int}
    {Q : Except JsError ℕ → Trace Reply JsError → Prop} :
    (zRemRangeByScore key min max).wp (recording ok) T Q t ↔
      ∀ r, ok ⟨.redis (.zRemRangeByScore key min max), r⟩ →
        T (⟨.redis (.zRemRangeByScore key min max), r⟩ :: t) ∧
        Q r (⟨.redis (.zRemRangeByScore key min max), r⟩ :: t) :=
  Program.wp_step_recording

namespace Connection

theorem wp_getConnection {Q : Except JsError Unit → Trace Reply JsError → Prop} :
    getConnection.wp (recording ok) T Q t ↔ ∀ r, ok ⟨.sql .getConnection, r⟩ →
      T (⟨.sql .getConnection, r⟩ :: t) ∧ Q r (⟨.sql .getConnection, r⟩ :: t) :=
  Program.wp_step_recording

theorem wp_beginTransaction {Q : Except JsError Unit → Trace Reply JsError → Prop} :
    beginTransaction.wp (recording ok) T Q t ↔ ∀ r, ok ⟨.sql .beginTransaction, r⟩ →
      T (⟨.sql .beginTransaction, r⟩ :: t) ∧ Q r (⟨.sql .beginTransaction, r⟩ :: t) :=
  Program.wp_step_recording

theorem wp_execute {statement : Statement}
    {Q : Except JsError statement.Result → Trace Reply JsError → Prop} :
    (execute statement).wp (recording ok) T Q t ↔ ∀ r, ok ⟨.sql (.execute statement), r⟩ →
      T (⟨.sql (.execute statement), r⟩ :: t) ∧ Q r (⟨.sql (.execute statement), r⟩ :: t) :=
  Program.wp_step_recording

theorem wp_commit {Q : Except JsError Unit → Trace Reply JsError → Prop} :
    commit.wp (recording ok) T Q t ↔ ∀ r, ok ⟨.sql .commit, r⟩ →
      T (⟨.sql .commit, r⟩ :: t) ∧ Q r (⟨.sql .commit, r⟩ :: t) :=
  Program.wp_step_recording

theorem wp_rollback {Q : Except JsError Unit → Trace Reply JsError → Prop} :
    rollback.wp (recording ok) T Q t ↔ ∀ r, ok ⟨.sql .rollback, r⟩ →
      T (⟨.sql .rollback, r⟩ :: t) ∧ Q r (⟨.sql .rollback, r⟩ :: t) :=
  Program.wp_step_recording

theorem wp_release {Q : Except JsError Unit → Trace Reply JsError → Prop} :
    release.wp (recording ok) T Q t ↔ ∀ r, ok ⟨.sql .release, r⟩ →
      T (⟨.sql .release, r⟩ :: t) ∧ Q r (⟨.sql .release, r⟩ :: t) :=
  Program.wp_step_recording

end Connection

end Record

end Notification
