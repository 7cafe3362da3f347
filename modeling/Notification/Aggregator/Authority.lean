import Notification.Aggregator.Effects
import Notification.Aggregator.Schema

/-!
# Who decides about a provider call

The row of a message says whether it is delivered, and Redis only remembers that a delivery
has been tried. But the row is only read if Redis has the key, so a lost key decides too.
-/

namespace Notification

open Interaction Program

/-- The row of the message is finally delivered. -/
def FinallyDelivered (w : World) (messageId : String) : Prop :=
  ∃ row, w.row? messageId = some row ∧ row.finalDelivered = true

/-- Redis answers that it has the delivery key of the message. -/
def Cached (broken : Call → Bool) (w : World) (m : MessageToDeliver) : Prop :=
  (w.redis.live (DeliveryDeduplicationService.buildDeliveryKey m.dedupKey)).isSome = true ∧
    broken (.redis (.exists (DeliveryDeduplicationService.buildDeliveryKey m.dedupKey))) = false

/-- The provider is called exactly for a message that is not finally delivered; one that is
counts as a success and changes nothing. -/
structure DatabaseDecides (m : MessageToDeliver) (w : World)
    (out : Except JsError ProcessResult × World) : Prop where
  sends : ¬ FinallyDelivered w m.messageId → ∃ s, out.2.inbox = w.inbox ++ [s] ∧ s.message = m
  spares : FinallyDelivered w m.messageId → out.2.inbox = w.inbox ∧ out.2.db = w.db ∧
    ∃ result, out.1 = .ok result ∧ result.success = true

section Broken

variable {broken : Call → Bool} {uuid : ℕ → String} {choose : World → Choice} {w : World}

/-- Only a `send` reaches the providers, and that call does not break. -/
theorem inbox_brokenHandler {c : Call} {r : Except JsError (Reply c)} (h : Bookkeeping ⟨c, r⟩) :
    (World.brokenHandler broken uuid choose c w).2.inbox = w.inbox := by
  by_cases hbroken : World.external c && broken c
  · obtain ⟨isExternal, hbroken⟩ := Bool.and_eq_true_iff.mp hbroken
    rw [World.brokenHandler_of_broken isExternal hbroken]
  · have hanswer : World.brokenHandler broken uuid choose c w = World.handler uuid choose c w := by
      rw [World.brokenHandler, World.brokenAnswer, if_neg hbroken]
      rfl
    rw [hanswer, World.handler]
    cases c with
    | sql c => cases hdb : w.db.answer 0 c <;> simp [World.answer, hdb]
    | repository c => cases hdb : w.db.repository c <;> simp [World.answer, hdb]
    | send provider recipient body options message => exact h.elim
    | _ => rfl

variable (uuid choose) in
theorem inbox_handler {c : Call} {r : Except JsError (Reply c)} (h : Bookkeeping ⟨c, r⟩) :
    (World.handler uuid choose c w).2.inbox = w.inbox := by
  have hnone : World.brokenHandler (fun _ => false) uuid choose c w =
      World.handler uuid choose c w := World.brokenHandler_of_sound rfl
  rw [← hnone]
  exact inbox_brokenHandler h

theorem brokenHandler_send (provider recipient body : String) (options : IdempotencyOptions)
    (m : MessageToDeliver) : World.brokenHandler broken uuid choose
        (.send provider recipient body options m) w =
      ((choose w).outcome, { w with inbox := w.inbox ++
        [⟨provider, recipient, body, options, m, (choose w).outcome⟩] }) := rfl

end Broken

namespace DeliveryProcessorService

variable {broken : Call → Bool} {uuid : ℕ → String} {choose : World → Choice} {w w₁ : World}
  {m : MessageToDeliver} {R : IDeliveryRepository} (provider : IProvider)

variable (broken uuid choose) in
theorem inbox_of_makes {α : Type} {p : Prog α} (h : p.Makes Bookkeeping) (w : World) :
    (p.run (World.brokenHandler broken uuid choose) w).2.inbox = w.inbox :=
  h.run_keeps (fun _ _ _ keeps => inbox_brokenHandler keeps) w

/-- A message that is not found delivered is sent once, whatever happens afterwards. -/
theorem inbox_of_undelivered (keeps : R.Keeps)
    (h : (alreadyDelivered R m).run (World.brokenHandler broken uuid choose) w = (.ok false, w₁)) :
    ∃ s, ((processDelivery R provider m).run (World.brokenHandler broken uuid choose) w).2.inbox =
      w₁.inbox ++ [s] ∧ s.message = m := by
  refine ⟨⟨provider.name, m.recipient, m.body, sendOptions m (m.attempt + 1), m,
    (choose w₁).outcome⟩, ?_, rfl⟩
  simp only [processDelivery, deliver, run_tryCatch, run_bind, h, andThen_ok, IProvider.send,
    run_perform, brokenHandler_send, Bool.false_eq_true, if_false]
  cases (choose w₁).outcome with
  | error e => exact inbox_of_makes broken uuid choose (makes_handleFailure keeps.within m _ e) _
  | ok result =>
      rw [andThen_ok, ← run_tryCatch]
      refine inbox_of_makes broken uuid choose
        (Makes.tryCatch ?_ fun e => makes_handleFailure keeps.within m _ e) _
      exact Makes.bind (makes_recordSuccess keeps.within m _ result) fun _ => makes_pure _

/-- The delivery check only fails to notice a key that is lost or cannot be read. -/
theorem run_checkDeliveryDedup_broken (broken : Call → Bool) (uuid : ℕ → String)
    (choose : World → Choice) (w : World) (m : MessageToDeliver) :
    ∃ isNew redis, (DeliveryDeduplicationService.checkDeliveryDedup m.dedupKey).run
        (World.brokenHandler broken uuid choose) w = (.ok isNew, { w with redis := redis }) ∧
      (isNew = false ↔ Cached broken w m) := by
  simp only [DeliveryDeduplicationService.checkDeliveryDedup, run_tryCatch, run_bind,
    RedisClient.exists, RedisClient.setNX, run_perform, Cached]
  cases hexists : broken (.redis (.exists
      (DeliveryDeduplicationService.buildDeliveryKey m.dedupKey))) with
  | true =>
      rw [World.brokenHandler_of_broken rfl hexists]
      exact ⟨true, w.redis, rfl, by simp⟩
  | false =>
      rw [World.brokenHandler_of_sound hexists, ← run_perform (World.handler uuid choose),
        ← RedisClient.exists, RedisClient.run_exists, andThen_ok, run_ite]
      by_cases hlive :
          (w.redis.live (DeliveryDeduplicationService.buildDeliveryKey m.dedupKey)).isSome
      · exact ⟨false, w.redis, by simp [hlive], by simp [hlive]⟩
      · simp only [hlive, run_bind, run_perform]
        cases hset : broken (.redis (.setNX
            (DeliveryDeduplicationService.buildDeliveryKey m.dedupKey) (.number 1))) with
        | true =>
            rw [World.brokenHandler_of_broken rfl hset]
            exact ⟨true, w.redis, rfl, by simp⟩
        | false =>
            rw [World.brokenHandler_of_sound hset, ← run_perform (World.handler uuid choose),
              ← RedisClient.setNX, RedisClient.run_setNX, if_neg hlive]
            exact ⟨true, _, rfl, by simp⟩

section Decision

variable (sound : ∀ c, broken c = true → ∃ rc, c = .redis rc)

include sound

theorem run_alreadyDelivered_interface (uuid : ℕ → String) (choose : World → Choice) (w : World)
    (m : MessageToDeliver) : ∃ delivered redis, (alreadyDelivered interfaceRepository m).run
        (World.brokenHandler broken uuid choose) w = (.ok delivered, { w with redis := redis }) ∧
      (delivered = true ↔ FinallyDelivered w m.messageId ∧ Cached broken w m) := by
  obtain ⟨isNew, redis, hrun, hcached⟩ := run_checkDeliveryDedup_broken broken uuid choose w m
  have hstatus : broken (.repository (.getStatus m.messageId)) = false := by
    by_contra hbroken
    obtain ⟨rc, hrc⟩ := sound _ (Bool.not_eq_false _ ▸ hbroken)
    cases hrc
  simp only [alreadyDelivered, run_bind, hrun, andThen_ok, run_ite]
  cases isNew with
  | true => exact ⟨false, redis, rfl, by simp [← hcached]⟩
  | false =>
      have hget := InterfaceRepository.run_getStatus uuid choose
        { w with redis := redis } m.messageId
      refine ⟨((w.db.getStatus m.messageId).map MessageStatus.finalDelivered).getD false, redis,
        ?_, ?_⟩
      · simp only [interfaceRepository, run_perform] at hget ⊢
        rw [if_neg Bool.false_ne_true, World.brokenHandler_of_sound hstatus, hget]
        rfl
      · rw [and_iff_left (hcached.mp rfl), FinallyDelivered, Database.getStatus, Option.map_map,
          World.row?]
        cases w.db.messages.find? fun r => r.messageId == m.messageId <;> simp

theorem checksStatements_brokenHandler (uuid : ℕ → String) (choose : World → Choice) (w : World)
    (ev : CallEvent) (w' : World) (h : handled (World.brokenHandler broken uuid choose) w ev w') :
    ChecksStatements ev := by
  intro st e r heq
  subst heq
  have hsql : broken (.sql (.execute st)) = false := by
    by_contra hbroken
    obtain ⟨rc, hrc⟩ := sound _ (Bool.not_eq_false _ ▸ hbroken)
    cases hrc
  rw [handled, World.brokenHandler_of_sound hsql] at h
  have hanswered : handled (World.handler uuid choose) w ⟨.sql (.execute st), r⟩ w' := h
  exact checksStatements_handler uuid choose hanswered st e r rfl

/-- Through the schema of `init.sql` the row of a cached message cannot be read. -/
theorem alreadyDelivered_through_schema (uuid : ℕ → String) (choose : World → Choice)
    (w : World) (m : MessageToDeliver) :
    let out := (alreadyDelivered deliveryRepository m).run
      (World.brokenHandler broken uuid choose) w
    (out.1 = .ok false ∧ ¬ Cached broken w m) ∨ ((∃ e, out.1 = .error e) ∧ Cached broken w m) := by
  obtain ⟨isNew, redis, hrun, hcached⟩ := run_checkDeliveryDedup_broken broken uuid choose w m
  simp only [alreadyDelivered, run_bind, hrun, andThen_ok]
  cases isNew with
  | true => exact .inl ⟨rfl, by simp [← hcached]⟩
  | false =>
      have refused := (DeliveryRepository.wp_getStatus (s := { w with redis := redis })
        (checksStatements_brokenHandler sound uuid choose) m.messageId).run
      refine .inr ⟨?_, hcached.mp rfl⟩
      rw [if_neg Bool.false_ne_true, run_bind]
      cases hget : (DeliveryRepository.getStatus m.messageId).run
        (World.brokenHandler broken uuid choose) { w with redis := redis } with
      | mk r w' =>
          rw [hget] at refused
          cases r with
          | ok _ => exact refused.elim
          | error e => exact ⟨e, by simp only [deliveryRepository, hget, andThen_error]⟩

end Decision

/-- A message that is found delivered counts as a duplicate. -/
theorem run_of_delivered
    (h : (alreadyDelivered R m).run (World.brokenHandler broken uuid choose) w = (.ok true, w₁)) :
    (processDelivery R provider m).run (World.brokenHandler broken uuid choose) w =
      (.ok { success := true, shouldRetry := false, isDuplicate := true }, w₁) := by
  simp [processDelivery, deliver, h]

/-- If the row cannot be read, the provider is not called. -/
theorem inbox_of_unread (keeps : R.Keeps) {e : JsError}
    (h : (alreadyDelivered R m).run (World.brokenHandler broken uuid choose) w = (.error e, w₁)) :
    ((processDelivery R provider m).run (World.brokenHandler broken uuid choose) w).2.inbox =
      w₁.inbox := by
  simp only [processDelivery, deliver, run_tryCatch, run_bind, h, andThen_error, orElse_error]
  exact inbox_of_makes broken uuid choose (makes_handleFailure keeps.within m _ e) _

section Decision

variable (sound : ∀ c, broken c = true → ∃ rc, c = .redis rc)

include sound

/-- The provider is spared exactly if the row is finally delivered and Redis has the key. -/
theorem inbox_same_iff : ((processDelivery interfaceRepository provider m).run
      (World.brokenHandler broken uuid choose) w).2.inbox = w.inbox ↔
    FinallyDelivered w m.messageId ∧ Cached broken w m := by
  obtain ⟨delivered, redis, hrun, hdelivered⟩ :=
    run_alreadyDelivered_interface sound uuid choose w m
  cases delivered with
  | true =>
      rw [run_of_delivered provider hrun]
      exact iff_of_true rfl (hdelivered.mp rfl)
  | false =>
      obtain ⟨s, hinbox, -⟩ := inbox_of_undelivered provider keeps_interfaceRepository hrun
      rw [hinbox, ← hdelivered]
      simp

theorem databaseDecides_interface_iff : DatabaseDecides m w
      ((processDelivery interfaceRepository provider m).run
        (World.brokenHandler broken uuid choose) w) ↔
    (FinallyDelivered w m.messageId → Cached broken w m) := by
  constructor
  · intro h hdelivered
    exact ((inbox_same_iff provider sound).mp (h.spares hdelivered).1).2
  · intro hcached
    obtain ⟨delivered, redis, hrun, hiff⟩ := run_alreadyDelivered_interface sound uuid choose w m
    cases delivered with
    | true =>
        rw [run_of_delivered provider hrun]
        exact ⟨fun h => absurd (hiff.mp rfl).1 h, fun _ => ⟨rfl, rfl, _, rfl, rfl⟩⟩
    | false =>
        obtain ⟨s, hinbox, hs⟩ := inbox_of_undelivered provider keeps_interfaceRepository hrun
        exact ⟨fun _ => ⟨s, hinbox, hs⟩, fun h =>
          absurd (hiff.mpr ⟨h, hcached h⟩) Bool.false_ne_true⟩

theorem databaseDecides_through_schema_iff : DatabaseDecides m w
      ((processDelivery deliveryRepository provider m).run
        (World.brokenHandler broken uuid choose) w) ↔
    ¬ FinallyDelivered w m.messageId ∧ ¬ Cached broken w m := by
  have hrun := alreadyDelivered_through_schema sound uuid choose w m
  have hinbox := inbox_of_makes broken uuid choose
    (makes_alreadyDelivered keeps_deliveryRepository.within m) w
  cases hout : (alreadyDelivered deliveryRepository m).run
    (World.brokenHandler broken uuid choose) w with
  | mk r w₁ =>
    rw [hout] at hrun hinbox
    obtain ⟨rfl, hcached⟩ | ⟨⟨e, rfl⟩, hcached⟩ := hrun
    · obtain ⟨s, hsent, hs⟩ := inbox_of_undelivered provider keeps_deliveryRepository hout
      rw [hinbox] at hsent
      refine ⟨fun h => ⟨fun hdelivered => ?_, hcached⟩, fun h => ⟨fun _ => ⟨s, hsent, hs⟩,
        fun hdelivered => absurd hdelivered h.1⟩⟩
      simpa [hsent] using (h.spares hdelivered).1
    · have hsame := (inbox_of_unread provider keeps_deliveryRepository hout).trans hinbox
      refine ⟨fun h => ?_, fun h => absurd hcached h.2⟩
      by_cases hdelivered : FinallyDelivered w m.messageId
      · obtain ⟨-, -, result, hresult, -⟩ := h.spares hdelivered
        have hthrows := (processDelivery_throws (s := w)
          (checksStatements_brokenHandler sound uuid choose) provider m).run
        rw [hresult] at hthrows
        exact hthrows.elim
      · obtain ⟨s, hsent, -⟩ := h.sends hdelivered
        simp [hsame] at hsent

end Decision

/-- When the database decides. The repository of the interface needs the key of a delivered
message; with the one of `init.sql` neither may there be the key nor may the message be
delivered. Two runs that differ in Redis decide alike unless the message is delivered and
only one of them has the key. -/
theorem databaseDecides_iff (sound : ∀ c, broken c = true → ∃ rc, c = .redis rc)
    (m : MessageToDeliver) (w : World) :
    (DatabaseDecides m w ((processDelivery interfaceRepository provider m).run
        (World.brokenHandler broken uuid choose) w) ↔
      (FinallyDelivered w m.messageId → Cached broken w m)) ∧
    (DatabaseDecides m w ((processDelivery deliveryRepository provider m).run
        (World.brokenHandler broken uuid choose) w) ↔
      ¬ FinallyDelivered w m.messageId ∧ ¬ Cached broken w m) ∧
    ∀ (broken' : Call → Bool) (redis : Redis), (∀ c, broken' c = true → ∃ rc, c = .redis rc) →
      ((((processDelivery interfaceRepository provider m).run
            (World.brokenHandler broken uuid choose) w).2.inbox = w.inbox ↔
          ((processDelivery interfaceRepository provider m).run
            (World.brokenHandler broken' uuid choose)
              { w with redis := redis }).2.inbox = w.inbox) ↔
        (FinallyDelivered w m.messageId →
          (Cached broken w m ↔ Cached broken' { w with redis := redis } m))) := by
  refine ⟨databaseDecides_interface_iff provider sound,
    databaseDecides_through_schema_iff provider sound, fun broken' redis sound' => ?_⟩
  exact (iff_congr (inbox_same_iff provider sound) (inbox_same_iff provider sound')).trans
    and_congr_right_iff

/-! ## A lost key -/

/-- The row of `sampleMessage` after its delivery. -/
def deliveredRow : MessageRow where
  messageId := sampleMessage.messageId
  idempotencyKey := "key-1"
  tenantId := sampleMessage.tenantId
  dedupKey := sampleMessage.dedupKey
  userId := sampleMessage.userId
  channel := sampleMessage.channel
  recipient := sampleMessage.recipient
  body := sampleMessage.body
  status := .sent
  finalDelivered := true
  attemptCount := 1

/-- The message is delivered, and Redis has lost everything. -/
def lostCache : World := { db := { messages := [deliveredRow] } }

def keptCache : World :=
  let key := DeliveryDeduplicationService.buildDeliveryKey sampleMessage.dedupKey
  { lostCache with redis := lostCache.redis.set key (.number 1) none }

def decided (w : World) : Except JsError ProcessResult × World :=
  (processDelivery interfaceRepository ⟨"SMSProvider"⟩ sampleMessage).run
    (World.brokenHandler (fun _ => false) toString providerAccepts) w

/-- The two worlds only differ in Redis. With the key the provider is spared, without it
the message is sent again. -/
theorem databaseDecides_fails :
    FinallyDelivered lostCache sampleMessage.messageId ∧
    keptCache.db = lostCache.db ∧
    (decided keptCache).2.inbox.length = 0 ∧ (decided lostCache).2.inbox.length = 1 ∧
    ¬ DatabaseDecides sampleMessage lostCache (decided lostCache) := by
  refine ⟨⟨deliveredRow, rfl, rfl⟩, rfl, rfl, rfl, fun h => ?_⟩
  have hinbox := (h.spares ⟨deliveredRow, rfl, rfl⟩).1
  cases congrArg List.length hinbox

/-- With the key in place the database decides. -/
theorem databaseDecides_keptCache :
    DatabaseDecides sampleMessage keptCache (decided keptCache) := by
  have sound : ∀ c, (fun _ => false : Call → Bool) c = true → ∃ rc, c = .redis rc :=
    fun _ h => absurd h Bool.false_ne_true
  exact (databaseDecides_iff ⟨"SMSProvider"⟩ sound sampleMessage keptCache).1.mpr
    fun _ => ⟨rfl, rfl⟩

end DeliveryProcessorService

end Notification
