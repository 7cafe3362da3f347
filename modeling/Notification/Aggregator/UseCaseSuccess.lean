import Notification.Aggregator.ProcessDeliveryUseCase
import Notification.Aggregator.Terminal
import Notification.Interaction.Series

/-!
# What the use case reports

`execute` reports success for a message it has sent, for one whose row is delivered, and for any
message whose dedup marker it could not set. The last is only true of messages that have been
sent or delivered before.
-/

namespace Notification

open Interaction Program

namespace UseCaseSuccess

open Delivering (Delivery)
open ProcessDeliveryUseCase

/-- `provider.send` has resolved for the message. -/
def sends (messageId : String) : CallEvent → Bool
  | ⟨.send _ _ _ _ message, .ok _⟩ => message.messageId == messageId
  | _ => false

/-- A retry of the message has been put into the sorted set. -/
def schedules (m : MessageToDeliver) : CallEvent → Bool
  | ⟨.redis (.zAdd key _ member), .ok _⟩ => key == "retries" &&
      member == RetrySchedulerService.payload m.messageId m.channel (m.attempt + 1)
  | _ => false

/-- A DLQ entry of the message has been saved. -/
def buries (m : MessageToDeliver) : CallEvent → Bool
  | ⟨.repository (.saveDLQEntry entry), .ok _⟩ => entry.messageId == m.messageId
  | _ => false

/-- A committed row of the message is finally delivered. -/
def RowDelivered (messageId : String) (w : World) : Prop :=
  ∃ r ∈ w.db.messages, r.messageId = messageId ∧ r.finalDelivered = true

abbrev UseCaseTurn := Turn Reply JsError World fun _ : Delivery => DeliveryResult

/-- In one of the calls the provider has taken the message. -/
def Sent (messageId : String) (xs : List UseCaseTurn) : Prop :=
  ∃ x ∈ xs, x.trace.any (sends messageId) = true

/-- Calls of `execute` one after another, in a world in which every call may fail, whether it has
had its effect or not. -/
def executions (uuid : ℕ → String)
    (permits : List UseCaseTurn → Delivery → World → CallEvent → Prop) :
    Series Reply JsError World fun _ : Delivery => DeliveryResult where
  program d := execute interfaceRepository d.provider d.message
  env := World.lossy uuid 0
  starts _ := True
  drifts := World.later
  admits _ _ _ := True
  permits xs d w _ ev _ := permits xs d w ev

/-- The dedup marker can be set, unless the message has been sent or delivered before. -/
def MarkerUp (xs : List UseCaseTurn) (d : Delivery) (w : World) : CallEvent → Prop
  | ⟨.redis (.setNX _ _), .error _⟩ =>
    Sent d.message.messageId xs ∨ RowDelivered d.message.messageId w
  | _ => True

/-- Success means that the message has been sent, in this or an earlier call, or was delivered
already; any other result that there is a retry or a DLQ entry from this call. -/
def Truthful (xs : List UseCaseTurn) (x : UseCaseTurn) : Prop :=
  match x.outcome with
  | .ok ⟨true, _⟩ => Sent x.job.message.messageId (xs ++ [x]) ∨
      RowDelivered x.job.message.messageId x.before
  | .ok ⟨false, _⟩ => x.trace.any (schedules x.job.message) = true ∨
      x.trace.any (buries x.job.message) = true
  | .error _ => True

section Blocks

variable {uuid : ℕ → String} {permits : CallEvent → Prop} {m : MessageToDeliver} {n : Int}
  {w : World} {s : World × Trace Reply JsError}

/-- The environment of one call. -/
abbrev env (uuid : ℕ → String) (permits : CallEvent → Prop) :
    Env Reply JsError (World × Trace Reply JsError) :=
  traced (World.lossy uuid 0) fun _ ev _ => permits ev

theorem rowDelivered_of_getStatus {messageId : String}
    (h : ((w.db.getStatus messageId).map MessageStatus.finalDelivered).getD false = true) :
    RowDelivered messageId w := by
  rw [Database.getStatus, Option.map_map] at h
  cases hfind : w.db.messages.find? fun r => r.messageId == messageId with
  | none =>
      rw [hfind] at h
      cases h
  | some r =>
      rw [hfind] at h
      exact ⟨r, List.mem_of_find?_eq_some hfind, by simpa using List.find?_some hfind, h⟩

/-- The message is taken for delivered if its marker could not be set or its row says so. -/
theorem wp_alreadyDelivered :
    (alreadyDelivered interfaceRepository m).wp (env uuid permits) (fun _ => True)
      (either (fun delivered _ => delivered = true →
        (∃ e, permits ⟨.redis (.setNX ("delivered:" ++ m.dedupKey) (.number 1)), .error e⟩) ∨
          RowDelivered m.messageId w) fun _ _ => True) (w, []) := by
  rw [alreadyDelivered, wp_bind, RedisDeliveryService.checkDeliveryDedup, wp_tryCatch, wp_bind]
  refine wp_perform_traced.mpr fun r w₁ answer permitted => ⟨trivial, ?_⟩
  cases r with
  | error e => exact fun _ => .inl ⟨e, permitted⟩
  | ok isNew =>
      have hdb : w₁.db = w.db := by
        rcases World.lossy_redis answer with rfl | ⟨rfl, -⟩ <;> rfl
      refine wp_bind.mpr (wp_perform_traced.mpr fun r w₂ answer _ => ⟨trivial, ?_⟩)
      cases r with
      | error e => trivial
      | ok status =>
          obtain ⟨choice, hanswer⟩ := World.up_of_lossy_ok answer
          cases hanswer
          intro delivered
          have := rowDelivered_of_getStatus delivered
          rw [RowDelivered, hdb] at this
          exact .inr this

theorem wp_deliver {provider : IProvider} :
    (deliver interfaceRepository provider m n).wp (env uuid permits) (fun _ => True)
      (either (fun r s' => r.success = true ∧
        ((∃ e, permits ⟨.redis (.setNX ("delivered:" ++ m.dedupKey) (.number 1)), .error e⟩) ∨
          RowDelivered m.messageId w ∨ s'.2.any (sends m.messageId) = true)) fun _ _ => True)
      (w, []) := by
  rw [deliver, wp_bind]
  apply mono_post wp_alreadyDelivered
  intro o s h
  cases o with
  | error e => trivial
  | ok delivered =>
      rw [either_ok, wp_ite]
      refine ⟨fun hdelivered => ⟨rfl, (h hdelivered).imp_right .inl⟩, fun _ => ?_⟩
      rw [wp_bind]
      refine wp_perform_traced.mpr fun r w₁ answer _ => ⟨trivial, ?_⟩
      cases r with
      | error e => trivial
      | ok result =>
          rw [either_ok, wp_bind]
          apply mono_post (wp_traced_any (sends m.messageId) (by simp [sends]) _)
          intro o s' sent
          cases o with
          | error e => trivial
          | ok _ => exact ⟨rfl, .inr (.inr sent)⟩

theorem wp_sendToDlq {e : JsError} : (sendToDlq interfaceRepository m n e).wp (env uuid permits)
    (fun _ => True) (either (fun r s' => r.success = false ∧ s'.2.any (buries m) = true)
      fun _ _ => True) s := by
  rw [sendToDlq, wp_bind]
  refine wp_perform_traced.mpr fun r w₁ _ _ => ⟨trivial, ?_⟩
  cases r with
  | error e => trivial
  | ok _ =>
      refine wp_bind.mpr (wp_perform_traced.mpr fun r w₂ _ _ => ⟨trivial, ?_⟩)
      cases r with
      | error e => trivial
      | ok _ =>
          rw [either_ok, wp_bind]
          apply mono_post (wp_traced_any (buries m) (by simp [buries, dlqEntry]) _)
          intro o s' buried
          cases o with
          | error e => trivial
          | ok _ => exact ⟨rfl, buried⟩

theorem wp_retry {e : JsError} : (retry m (m.attempt + 1) e).wp (env uuid permits)
    (fun _ => True) (either (fun r s' => r.success = false ∧ s'.2.any (schedules m) = true)
      fun _ _ => True) s := by
  rw [retry, wp_bind, RedisDeliveryService.scheduleRetry, wp_bind]
  refine wp_perform_traced.mpr fun r w₁ _ _ => ⟨trivial, ?_⟩
  cases r with
  | error e => trivial
  | ok now =>
      rw [either_ok]
      cases backoffDelay (m.attempt + 1) with
      | none => trivial
      | some delay =>
          refine wp_perform_traced.mpr fun r w₂ _ _ => ⟨trivial, ?_⟩
          cases r with
          | error e => trivial
          | ok _ =>
              rw [either_ok, wp_bind]
              apply mono_post (wp_traced_any (schedules m) (by simp [schedules]) _)
              intro o s' scheduled
              cases o with
              | error e => trivial
              | ok _ => exact ⟨rfl, scheduled⟩

theorem wp_handleFailure {e : JsError} : (handleFailure interfaceRepository m (m.attempt + 1) e).wp
    (env uuid permits) (fun _ => True)
      (either (fun r s' => r.success = false ∧
        (s'.2.any (schedules m) = true ∨ s'.2.any (buries m) = true)) fun _ _ => True) s := by
  rw [handleFailure, wp_bind]
  refine wp_perform_traced.mpr fun r w₁ _ _ => ⟨trivial, ?_⟩
  cases r with
  | error e => trivial
  | ok _ =>
      rw [either_ok, wp_ite]
      refine ⟨fun _ => mono_post wp_sendToDlq fun o s' h => ?_,
        fun _ => mono_post wp_retry fun o s' h => ?_⟩
      · cases o with
        | error e => trivial
        | ok _ => exact ⟨h.1, .inr h.2⟩
      · cases o with
        | error e => trivial
        | ok _ => exact ⟨h.1, .inl h.2⟩

end Blocks

/-- As long as the marker of a message can be set, or the message has been sent or delivered
before, every result is true. -/
theorem truthful {uuid : ℕ → String} {xs : List UseCaseTurn} {x : UseCaseTurn} {s : World}
    (run : (executions uuid MarkerUp).Runs (xs ++ [x]) s) : Truthful xs x := by
  obtain ⟨-, -, leads⟩ := run.last
  obtain ⟨⟨provider, m⟩, w, o, w', t⟩ := x
  have hexecute : (execute interfaceRepository provider m).wp
      (env uuid (MarkerUp xs ⟨provider, m⟩ w)) (fun _ => True)
      (fun o s' => Truthful xs ⟨⟨provider, m⟩, w, o, s'.1, s'.2⟩) (w, []) := by
    rw [execute, wp_tryCatch]
    apply mono_post wp_deliver
    intro o s' h
    cases o with
    | ok r =>
        obtain ⟨success, shouldRetry⟩ := r
        obtain ⟨rfl, ⟨e, marked⟩ | delivered | sent⟩ := h
        · apply marked.imp_left
          rintro ⟨x, hx, sent⟩
          exact ⟨x, List.mem_append_left _ hx, sent⟩
        · exact .inr delivered
        · exact .inl ⟨_, List.mem_append_right _ (List.mem_singleton.mpr rfl), sent⟩
    | error e =>
        apply mono_post wp_handleFailure
        intro o s'' h
        cases o with
        | error e => trivial
        | ok r =>
            obtain ⟨success, shouldRetry⟩ := r
            obtain ⟨rfl, h⟩ := h
            exact h
  exact hexecute.outcome leads

def isRedis : Call → Bool
  | .redis _ => true
  | _ => false

/-- Redis fails in the first call for a message, which is reported as a success. -/
theorem truthful_fails : ¬ ∀ (xs : List UseCaseTurn) (x : UseCaseTurn) (s : World),
    (executions toString fun _ _ _ _ => True).Runs (xs ++ [x]) s → Truthful xs x := by
  intro everyTruthful
  have start : (executions toString fun _ _ _ _ => True).Runs [] {} := .start trivial
  have first := start.executed (j := Delivering.sampleJob) trivial
    (fun c w => .inl (World.faulty_brokenHandler isRedis toString
      (fun _ => { outcome := .ok ⟨true, none⟩ }) c w))
    fun _ _ => trivial
  obtain ⟨x, hx, sent⟩ | ⟨r, hr, -⟩ := everyTruthful [] _ _ first
  · rw [List.mem_singleton.mp hx] at sent
    exact absurd sent (by decide)
  · exact absurd hr List.not_mem_nil

/-- A marker that is answered is up. -/
theorem markerUp_handler (uuid : ℕ → String) (choose : World → Choice) (xs : List UseCaseTurn)
    (d : Delivery) (w w' : World) (c : Call) :
    MarkerUp xs d w ⟨c, (World.handler uuid choose c w').1⟩ := by
  cases c with
  | redis c =>
      obtain ⟨a, ha⟩ := w'.redis.answer_ok c
      have hanswer : (World.handler uuid choose (.redis c) w').1 = .ok a := ha
      rw [hanswer]
      cases c <;> trivial
  | _ => trivial

/-- The provider accepts the message of the only call. -/
theorem truthful_sent : ∃ x : UseCaseTurn, x.job = Delivering.sampleJob ∧
    x.outcome = .ok { success := true, shouldRetry := false } ∧ Truthful [] x := by
  have start : (executions toString MarkerUp).Runs [] {} := .start trivial
  have first := start.executed (j := Delivering.sampleJob) trivial
    (fun c w => .inl (World.faulty_handler toString (fun _ => { outcome := .ok ⟨true, none⟩ }) c w))
    fun c w => markerUp_handler _ _ _ _ _ w c
  exact ⟨_, rfl, by decide, truthful first⟩

end UseCaseSuccess

end Notification
