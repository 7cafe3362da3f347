import Notification.Aggregator.ConsumerGroup
import Notification.Aggregator.WorkerCalls
import Notification.Router.RequestCalls

/-!
# The services together

Any number of requests, batches and polls run at once and share one database, one Redis and
one Kafka. Nobody else writes to the topics. Calls may throw before or after their effect,
processes crash, connections get lost, and Redis may forget what it was told.
-/

namespace Notification

open Interaction Program

inductive ServiceJob where
  | request (r : TextRequest)
  | batch (b : Batch)
  | poll

def ServiceJob.code (kind : RepositoryKind) (sha256 : String → String) :
    ServiceJob → Prog (Option HttpReply)
  | request r => do
    let reply ← MessageController.createMessage sha256 r.toRequest
    return some reply
  | batch b => do
    Worker.eachBatch kind.repository b
    return none
  | poll => do
    Worker.pollRetries
    return none

/-- Redis has lost some of its entries, or all of them. -/
structure Redis.Forgets (r r' : Redis) : Prop where
  time : r.time ≤ r'.time
  strings : ∀ key, r'.strings key = none ∨ r'.strings key = r.strings key
  zsets : ∀ key, (r'.zsets key).Sublist (r.zsets key)

/-- What happens without a call: a lost connection is rolled back, Redis's clock moves on or
Redis forgets, and Kafka commits offsets. -/
inductive World.Background (w : World) : World → Prop
  | rollback (conn : ℕ) : Background w { w with db := w.db.rollback conn }
  | redis (redis : Redis) : w.redis.Forgets redis → Background w { w with redis := redis }
  | commit (b : Batch) : Background w (w.commit b)

theorem World.Background.log {w w' : World} (h : w.Background w') : w'.log = w.log := by
  cases h with
  | commit b =>
      unfold World.commit
      split <;> rfl
  | _ => rfl

theorem World.Background.inbox {w w' : World} (h : w.Background w') : w'.inbox = w.inbox := by
  cases h with
  | commit b =>
      unfold World.commit
      split <;> rfl
  | _ => rfl

theorem World.Background.refl (w : World) : w.Background w :=
  .redis w.redis ⟨le_rfl, fun _ => .inr rfl, fun _ => .refl _⟩

/-- The repository of the deliveries is a parameter. A finished batch is committed whatever
its outcome, and a crash may roll the open transaction back at once or later. -/
def services (kind : RepositoryKind) (sha256 : String → String) (uuid : ℕ → String) :
    Machine Reply JsError (Option HttpReply) ServiceJob World where
  code := ServiceJob.code kind sha256
  starts w job := match job with
    | .batch b => w.Offers b
    | _ => True
  answers pid w ev w' := w.lossy uuid pid ev w' ∧ Refuses ev
  crashes pid w w' := w' = w ∨ w' = { w with db := w.db.rollback pid }
  settles job _ w w' := match job with
    | .batch b => w' = w.commit b
    | _ => False
  drifts w w' := (∃ conn, w' = { w with db := w.db.rollback conn }) ∨
    ∃ redis, w.redis.Forgets redis ∧ w' = { w with redis := redis }

abbrev Services := Pool Reply JsError (Option HttpReply) ServiceJob World

abbrev ServiceProc := Proc Reply JsError (Option HttpReply) ServiceJob

/-- Nothing has been stored, cached, sent or published yet. -/
structure World.Fresh (w : World) : Prop where
  rows : w.db.rows = []
  attempts : w.db.deliveryAttempts = []
  dlq : w.db.dlqEntries = []
  strings : ∀ key, w.redis.strings key = none
  zsets : ∀ key, w.redis.zsets key = []
  log : w.log = []
  inbox : w.inbox = []

theorem World.fresh_empty : World.Fresh {} := by
  constructor <;> intros <;> rfl

/-! ## Single steps -/

section Steps

variable {uuid : ℕ → String} {pid : ℕ} {w w' : World} {ev : CallEvent}

/-- A call has its effect, or it has none. -/
theorem effect_of_lossy (answer : w.lossy uuid pid ev w') :
    w' = w ∨ ∃ r, w.up uuid pid ⟨ev.call, r⟩ w' := by
  obtain (answer | ⟨-, rfl, -⟩) | ⟨-, -, r, answer⟩ := answer
  · exact .inr ⟨_, answer⟩
  · exact .inl rfl
  · exact .inr ⟨r, answer⟩

/-- Only the producer writes to the log. -/
theorem log_of_up {c : Call} {r : Except JsError (Reply c)} (answer : w.up uuid pid ⟨c, r⟩ w') :
    w'.log = w.log ∨ ∃ topic partition key value headers, c = .produce topic key value headers ∧
      w'.log = w.log ++ [⟨topic, partition, key, value, headers⟩] := by
  obtain ⟨choice, answer⟩ := answer
  cases c with
  | produce topic key value headers =>
      cases answer
      exact .inr ⟨_, _, _, _, _, rfl, rfl⟩
  | sql c =>
      obtain ⟨out, -, heq⟩ := Option.map_eq_some_iff.mp answer
      cases heq
      exact .inl rfl
  | repository c =>
      obtain ⟨out, -, heq⟩ := Option.map_eq_some_iff.mp answer
      cases heq
      exact .inl rfl
  | _ =>
      cases answer
      exact .inl rfl

/-- Only provider calls get into the inbox. -/
theorem inbox_of_up {c : Call} {r : Except JsError (Reply c)} (answer : w.up uuid pid ⟨c, r⟩ w') :
    w'.inbox = w.inbox ∨ ∃ provider recipient body options message outcome,
      c = .send provider recipient body options message ∧
        w'.inbox = w.inbox ++ [⟨provider, recipient, body, options, message, outcome⟩] := by
  obtain ⟨choice, answer⟩ := answer
  cases c with
  | send provider recipient body options message =>
      cases answer
      exact .inr ⟨_, _, _, _, _, _, rfl, rfl⟩
  | sql c =>
      obtain ⟨out, -, heq⟩ := Option.map_eq_some_iff.mp answer
      cases heq
      exact .inl rfl
  | repository c =>
      obtain ⟨out, -, heq⟩ := Option.map_eq_some_iff.mp answer
      cases heq
      exact .inl rfl
  | _ =>
      cases answer
      exact .inl rfl

/-- What a provider call leaves in the inbox. -/
def sending? : CallEvent → Option Sending
  | ⟨.send provider recipient body options message, outcome⟩ =>
    some ⟨provider, recipient, body, options, message, outcome⟩
  | _ => none

/-- A provider call gets into the inbox with its answer. -/
theorem inbox_of_lossy (answer : w.lossy uuid pid ev w') :
    w'.inbox = w.inbox ++ (sending? ev).toList := by
  obtain ⟨call, outcome⟩ := ev
  by_cases hsend : ∃ provider recipient body options message,
      call = .send provider recipient body options message
  · obtain ⟨provider, recipient, body, options, message, rfl⟩ := hsend
    obtain answer | ⟨hexternal, -⟩ := answer
    · exact congrArg World.inbox (World.faulty_send answer)
    · cases hexternal
  · have hnone : sending? ⟨call, outcome⟩ = none := by
      cases call with
      | send provider recipient body options message => exact absurd ⟨_, _, _, _, _, rfl⟩ hsend
      | _ => rfl
    rw [hnone, Option.toList_none, List.append_nil]
    obtain hsame | ⟨r, answer⟩ := effect_of_lossy answer
    · exact congrArg World.inbox hsame
    · obtain hinbox | ⟨_, _, _, _, _, _, hcall, -⟩ := inbox_of_up answer
      · exact hinbox
      · exact absurd ⟨_, _, _, _, _, hcall⟩ hsend

/-- Only commands change Redis. -/
theorem redis_of_up {c : Call} {r : Except JsError (Reply c)} (answer : w.up uuid pid ⟨c, r⟩ w') :
    w'.redis = w.redis ∨ ∃ command, c = .redis command ∧
      w'.redis = (w.redis.answer command).2 := by
  by_cases hredis : ∃ command, c = .redis command
  · obtain ⟨command, rfl⟩ := hredis
    obtain ⟨choice, answer⟩ := answer
    cases answer
    exact .inr ⟨command, rfl, rfl⟩
  · exact .inl (World.faulty_redis_eq (.inl answer) fun command h => hredis ⟨command, h⟩)

/-- Drawing a uuid does not fail. -/
theorem draws_of_lossy {r : Except JsError String} (answer : w.lossy uuid pid ⟨.uuidv4, r⟩ w') :
    r = .ok (uuid w.uuids) ∧ w' = { w with uuids := w.uuids + 1 } := by
  obtain answer | ⟨h, -⟩ := answer
  · exact World.faulty_uuidv4 answer
  · cases h

/-- Without failures a refused statement is answered with the error of the schema. -/
theorem refuses_of_answer {choice : Choice} {c : Call} {r : Except JsError (Reply c)}
    (answer : w.answer uuid pid choice c = some (r, w')) : Refuses ⟨c, r⟩ := by
  intro statement r' hev refused
  cases hev
  obtain ⟨error, hcheck⟩ := Option.ne_none_iff_exists'.mp refused
  simp only [World.answer, Database.answer, Database.execute_of_check _ _ hcheck] at answer
  cases answer
  exact ⟨error, rfl, Statement.check_code hcheck⟩

theorem honest_of_answers {kind : RepositoryKind} {sha256 : String → String}
    (answer : (services kind sha256 uuid).answers pid w ev w') : Honest ev := by
  constructor
  · exact answer.2
  · rintro r rfl
    exact ⟨_, (draws_of_lossy answer.1).1⟩

end Steps

namespace Services

variable {kind : RepositoryKind} {sha256 : String → String} {uuid : ℕ → String} {init : World}
  {allowed : Services → Action Reply JsError ServiceJob → Prop} {s s' : Services}
  {a : Action Reply JsError ServiceJob}

/-- What a step does to the world. -/
theorem shared_cases (step : (services kind sha256 uuid).Step s a s') :
    s'.shared = s.shared ∨ (∃ pid ev, a = .turn pid ev) ∨ s.shared.Background s'.shared := by
  cases step with
  | start _ => exact .inl rfl
  | turn => exact .inr (.inl ⟨_, _, rfl⟩)
  | crash _ hcrash =>
      obtain rfl | rfl := hcrash
      · exact .inl rfl
      · exact .inr (.inr (.rollback _))
  | @settle pid proc outcome shared _ _ _ hsettle =>
      cases hjob : proc.job with
      | batch b =>
          rw [hjob] at hsettle
          obtain rfl : shared = s.shared.commit b := hsettle
          exact .inr (.inr (.commit b))
      | request r =>
          rw [hjob] at hsettle
          exact hsettle.elim
      | poll =>
          rw [hjob] at hsettle
          exact hsettle.elim
  | drift hdrift =>
      obtain ⟨conn, rfl⟩ | ⟨redis, forgets, rfl⟩ := hdrift
      · exact .inr (.inr (.rollback conn))
      · exact .inr (.inr (.redis redis forgets))

/-- A step is a turn, which gets into the history, or happens without a call. -/
theorem history_cases (step : (services kind sha256 uuid).Step s a s') :
    (s'.history = s.history ∧ s.shared.Background s'.shared) ∨
      ∃ pid ev, s'.history = (pid, ev) :: s.history ∧ s.shared.lossy uuid pid ev s'.shared := by
  have quiet (hhistory : s'.history = s.history) (noTurn : ∀ pid ev, a ≠ .turn pid ev) :
      s'.history = s.history ∧ s.shared.Background s'.shared := by
    refine ⟨hhistory, ?_⟩
    obtain hsame | ⟨pid, ev, ha⟩ | background := shared_cases step
    · rw [hsame]
      exact .refl _
    · exact absurd ha (noTurn pid ev)
    · exact background
  cases step with
  | turn _ _ _ answer => exact .inr ⟨_, _, rfl, answer.1⟩
  | start _ => exact .inl (quiet rfl (by simp))
  | crash _ _ => exact .inl (quiet rfl (by simp))
  | settle _ _ _ _ => exact .inl (quiet rfl (by simp))
  | drift _ => exact .inl (quiet rfl (by simp))

/-- The topics only grow. -/
theorem log_of_step (step : (services kind sha256 uuid).Step s a s') :
    s.shared.log <+: s'.shared.log := by
  obtain hsame | ⟨pid, ev, rfl⟩ | background := shared_cases step
  · exact hsame ▸ List.prefix_refl _
  · cases step with
    | turn _ _ _ answer =>
        obtain hsame | ⟨r, answer⟩ := effect_of_lossy answer.1
        · exact hsame ▸ List.prefix_refl _
        · exact (World.grows_of_up answer).log
  · exact background.log ▸ List.prefix_refl _

/-- The inbox tells of all provider calls in the order in which they were made. -/
theorem inbox_eq (run : (services kind sha256 uuid).Run allowed init s) (fresh : init.Fresh) :
    s.shared.inbox = (s.history.map Prod.snd).reverse.filterMap sending? := by
  apply run.invariant
  · exact fresh.inbox
  · intro s a s' _ h step _
    obtain ⟨hhistory, background⟩ | ⟨pid, ev, hhistory, answer⟩ := history_cases step
    · rw [hhistory, background.inbox, h]
    · rw [hhistory, inbox_of_lossy answer, h, List.map_cons, List.reverse_cons,
        List.filterMap_append]
      cases hsending : sending? ev <;> simp [hsending]

/-- What a job calls, given what it has called before. -/
def JobCall (kind : RepositoryKind) (sha256 : String → String) (job : ServiceJob)
    (ev : CallEvent) (before : Trace Reply JsError) : Prop :=
  match job with
  | .request r => Ingress.RequestCall sha256 r before ev.call
  | .batch b => BatchCall kind b ev.call
  | .poll => PollCall before ev.call

/-- What the worker publishes for a batch is no message event. -/
theorem silent_of_batch {b : Batch} {topic : String} {key : Option Json} {value : Json}
    {headers : List (String × String)}
    (made : BatchCall kind b (.produce topic key value headers)) :
    Ingress.messageTopic topic = false := by
  cases made with
  | prepare c prepares => cases prepares
  | deliver e provider c member wellFormed hprovider delivers =>
      cases kind with
      | statements => cases delivers
      | interface =>
          cases delivers with
          | dlq reason _ => simp [Ingress.messageTopic, List.isPrefixOf]
          | log status text error => decide
          | report key reason _ => decide

theorem calls_code (job : ServiceJob) : (job.code kind sha256).wp (recording Honest)
    (Always (JobCall kind sha256 job)) (fun _ _ => True) [] := by
  have honest (ev : CallEvent) (h : Honest ev) : Refuses ev := h.refuses
  cases job with
  | request r =>
      rw [ServiceJob.code, wp_bind]
      apply mono_post Ingress.calls_createMessage
      intro o t _
      cases o <;> trivial
  | batch b =>
      rw [ServiceJob.code, wp_bind]
      apply mono_post ((Worker.calls_eachBatch kind b).restrict honest)
      intro o t _
      cases o <;> trivial
  | poll =>
      rw [ServiceJob.code, wp_bind]
      apply mono_post (Worker.calls_pollRetries.restrict honest)
      intro o t _
      cases o <;> trivial

theorem turn_makes (run : (services kind sha256 uuid).Run allowed init s) {pid : ℕ}
    {ev : CallEvent} (step : (services kind sha256 uuid).Step s (.turn pid ev) s')
    (permitted : allowed s (.turn pid ev)) :
    ∃ proc, s.procs[pid]? = some proc ∧ s.shared.lossy uuid pid ev s'.shared ∧
      JobCall kind sha256 proc.job ev proc.trace := by
  obtain ⟨proc, hproc, answer, made⟩ := run.turn_makes
    (fun _ _ _ _ => honest_of_answers) (fun job => calls_code job) step permitted
  exact ⟨proc, hproc, answer.1, made⟩

end Services

end Notification
