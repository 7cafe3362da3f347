import Notification.System.Provenance

/-!
# The system as it is deployed

The worker is started with the repository that runs the statements of the source, and the
database is the one of `init.sql`. The providers are called, but none of it is ever written
down: whatever runs at the same time, a row stays as it was inserted, and nothing that the
worker should leave behind is there.
-/

namespace Notification

open Interaction Program

/-- No delivery has left a trace: not in the rows, not in the tables for attempts and dead
letters, not in Redis and not on the topics of the aggregator. -/
structure Untouched (w : World) : Prop where
  rows : w.db.Holds fun r => r.status = .inProgress ∧ r.finalDelivered = false ∧
    r.attemptCount = 0
  attempts : w.db.deliveryAttempts = []
  zsets : ∀ key, w.redis.zsets key = []
  log : ∀ x ∈ w.log, Ingress.messageTopic x.topic = true ∨
    x.value.get? "service" = some (.string "router")

/-- The calls that leave no trace of a delivery. -/
def Traceless : Call → Prop
  | .produce topic _ value _ => Ingress.messageTopic topic = true ∨
    value.get? "service" = some (.string "router")
  | .sql (.execute statement) => statement.check ≠ none ∨
    (∃ columns keyColumns keys, statement = .select columns keyColumns keys) ∨
      ∃ columns values, statement = .insert .messages columns values ∧
        (insertedRow columns values).status = .inProgress ∧
        (insertedRow columns values).finalDelivered = false ∧
        (insertedRow columns values).attemptCount = 0
  | .repository _ => False
  | .redis (.zAdd _ _ _) => False
  | _ => True

section Steps

variable {sha256 : String → String} {uuid : ℕ → String} {pid : ℕ} {w w' : World} {c : Call}

theorem untouched_of_fresh (fresh : w.Fresh) : Untouched w where
  rows := by
    have none {r : MessageRow} (hr : r ∈ w.db.rows) : False := List.not_mem_nil (fresh.rows ▸ hr)
    exact ⟨fun r hr => (none hr).elim, fun r hr => (none hr).elim⟩
  attempts := fresh.attempts
  zsets := fresh.zsets
  log x hx := by simp [fresh.log] at hx

theorem keepsRows_of_traceless (traceless : Traceless c)
    (accepted : ∀ statement, c = .sql (.execute statement) → statement.check = none) :
    KeepsRows (fun r => r.status = .inProgress ∧ r.finalDelivered = false ∧ r.attemptCount = 0)
      c := by
  cases c with
  | sql c =>
      cases c with
      | execute statement =>
          obtain refused | ⟨_, _, _, rfl⟩ | ⟨columns, values, rfl, hrow⟩ := traceless
          · exact absurd (accepted statement rfl) refused
          · trivial
          · exact hrow
      | _ => trivial
  | repository c => exact traceless.elim
  | _ => trivial

theorem zsets_of_traceless {command : RedisCall} (traceless : Traceless (.redis command))
    (h : ∀ key, w.redis.zsets key = []) (key : String) :
    (w.redis.answer command).2.zsets key = [] := by
  cases command with
  | setNX key' value =>
      rw [Redis.answer]
      split <;> exact h key
  | zAdd key' score member => exact traceless.elim
  | zRemRangeByScore key' min max =>
      by_cases hkey : key = key'
      · subst hkey
        simp [Redis.answer, h]
      · simpa [Redis.answer, Redis.zRemRangeByScore, Function.update_of_ne hkey] using h key
  | _ => exact h key

theorem Untouched.up (h : Untouched w) {r : Except JsError (Reply c)}
    (answer : w.up uuid pid ⟨c, r⟩ w') (traceless : Traceless c) : Untouched w' := by
  constructor
  case rows => exact holds_of_up answer (keepsRows_of_traceless traceless) h.rows
  case attempts =>
    cases c with
    | sql c =>
        refine (tables_of_sql answer ?_).2.trans h.attempts
        rintro statement rfl
        obtain refused | select | ⟨columns, values, hinsert, -⟩ := traceless
        · exact .inl refused
        · exact .inr (.inl select)
        · exact .inr (.inr ⟨columns, values, hinsert⟩)
    | repository c => exact traceless.elim
    | _ =>
        obtain ⟨choice, answer⟩ := answer
        cases answer
        exact h.attempts
  case zsets =>
    obtain hredis | ⟨command, rfl, hredis⟩ := redis_of_up answer
    · rw [hredis]
      exact h.zsets
    · rw [hredis]
      exact zsets_of_traceless traceless h.zsets
  case log =>
    obtain hlog | ⟨topic, partition, key, value, headers, rfl, hlog⟩ := log_of_up answer
    · rw [hlog]
      exact h.log
    · intro x hx
      rw [hlog] at hx
      obtain hx | hx := List.mem_append.mp hx
      · exact h.log x hx
      · rw [List.mem_singleton.mp hx]
        exact traceless

theorem Untouched.background (h : Untouched w) (background : w.Background w') :
    Untouched w' := by
  cases background with
  | rollback conn => exact { h with rows := h.rows.rollback conn }
  | redis redis forgets =>
      exact { h with zsets := fun key => List.sublist_nil.mp (h.zsets key ▸ forgets.zsets key) }
  | commit b =>
      unfold World.commit
      split
      · exact h
      · exact { h with }

/-- With the statements of the source no job leaves a trace of a delivery. -/
theorem traceless_of_job {job : ServiceJob} {ev : CallEvent} {before : Trace Reply JsError}
    (made : Services.JobCall .statements sha256 job ev before) : Traceless ev.call := by
  obtain ⟨call, answer⟩ := ev
  cases job with
  | request r =>
      cases made with
      | publish o hrequest drawn silent valid =>
          exact .inl (Ingress.messageTopic_append o.request.channel)
      | accepted o spanId hrequest drawn => exact .inr rfl
      | duplicate o spanId cached hrequest drawn hcached => exact .inr rfl
      | failed key traceId error => exact .inr rfl
      | _ => trivial
  | batch b =>
      cases made with
      | prepare c prepares =>
          cases prepares with
          | control c h =>
              cases c with
              | execute statement => exact absurd rfl (h statement)
              | _ => trivial
          | select keys => exact .inr (.inl ⟨_, _, _, rfl⟩)
          | insert e member =>
              obtain ⟨columns, values, hinsert, hrow⟩ :=
                BatchIdempotencyService.insertMessage_eq e.toCheck
              refine .inr (.inr ⟨columns, values, hinsert, ?_⟩)
              rw [hrow]
              exact ⟨rfl, rfl, rfl⟩
          | _ => trivial
      | deliver e provider c member wellFormed hprovider delivers =>
          cases delivers with
          | refused statement refused => exact .inl refused
          | _ => trivial
  | poll =>
      cases made with
      | publish now items item key headers answered member =>
          exact .inl (Ingress.messageTopic_append _)
      | _ => trivial

end Steps

/-! ## Runs -/

namespace Services

variable {sha256 : String → String} {uuid : ℕ → String} {init : World}
  {allowed : Services → Action Reply JsError ServiceJob → Prop} {s : Services}

theorem untouched (run : (services .statements sha256 uuid).Run allowed init s)
    (fresh : init.Fresh) : Untouched s.shared := by
  apply run.invariant (untouched_of_fresh fresh)
  intro s a s' before h step permitted
  obtain hsame | ⟨pid, ev, rfl⟩ | background := shared_cases step
  · exact hsame ▸ h
  · obtain ⟨proc, hproc, answer, made⟩ := turn_makes before step permitted
    obtain hsame | ⟨r, answer⟩ := effect_of_lossy answer
    · exact hsame ▸ h
    · exact h.up answer (traceless_of_job made)
  · exact h.background background

/-- As it is deployed, the system never writes a delivery down: in every state of every run
each row is the one its request was inserted as, no attempt, dead letter or retry is recorded,
and the only reports are those of the router. -/
theorem deployed_writes_nothing (run : (services .statements sha256 uuid).Run allowed init s)
    (fresh : init.Fresh) :
    (∀ r ∈ s.shared.db.rows, ∃ o, Requested s o ∧ r = o.row sha256) ∧
    s.shared.db.deliveryAttempts = [] ∧ s.shared.db.dlqEntries = [] ∧
    (∀ key, s.shared.redis.zsets key = []) ∧
    ∀ x ∈ s.shared.log, Ingress.messageTopic x.topic = true ∨
      x.value.get? "service" = some (.string "router") := by
  have h := untouched run fresh
  have origins := traceable run fresh
  refine ⟨?_, h.attempts, origins.dlq, h.zsets, h.log⟩
  intro r hr
  obtain ⟨o, published, status, finalDelivered, attemptCount, stage, rfl⟩ :=
    origins.rows.rows r hr
  obtain ⟨hstatus, hdelivered, hattempts⟩ := h.rows.rows _ hr
  obtain rfl : status = .inProgress := hstatus
  obtain rfl : finalDelivered = false := hdelivered
  obtain rfl : attemptCount = 0 := hattempts
  exact ⟨o, origins.requested o published, rfl⟩

end Services

/-- The order is sent all the same. -/
theorem deployed_writes_nothing_order :
    ((∀ r ∈ (orderTried .statements (.ok ⟨true, none⟩)).shared.db.rows, ∃ o,
        Requested (orderTried .statements (.ok ⟨true, none⟩)) o ∧ r = o.row id) ∧
      (orderTried .statements (.ok ⟨true, none⟩)).shared.db.deliveryAttempts = [] ∧
      (orderTried .statements (.ok ⟨true, none⟩)).shared.db.dlqEntries = [] ∧
      (∀ key, (orderTried .statements (.ok ⟨true, none⟩)).shared.redis.zsets key = []) ∧
      ∀ x ∈ (orderTried .statements (.ok ⟨true, none⟩)).shared.log,
        Ingress.messageTopic x.topic = true ∨
          x.value.get? "service" = some (.string "router")) ∧
    (orderTried .statements (.ok ⟨true, none⟩)).shared.inbox.map Sending.recipient =
      ["+15550100"] :=
  ⟨Services.deployed_writes_nothing (run_orderTried .statements (.ok ⟨true, none⟩))
    World.fresh_empty, by decide⟩

end Notification
