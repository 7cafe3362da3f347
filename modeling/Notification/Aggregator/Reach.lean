import Notification.Aggregator.DeliveryLoop

/-!
# Which events get to the provider

With either repository a delivery finds its message delivered or calls the provider once.
The repository on `init.sql` cannot read the row of a message, so there the delivery key
alone decides.
-/

namespace Notification

open Interaction Program

/-- Every provider call fails. -/
def AllFail (choose : World → Choice) : Prop := ∀ s, ∃ e, (choose s).outcome = .error e

/-- A delivery finds the message delivered; `reads` tells if it can read the row. -/
def Found (reads : Bool) (w : World) (m : MessageToDeliver) : Prop :=
  (reads = true → FinallyDelivered w m.messageId) ∧
    (w.redis.live (DeliveryDeduplicationService.buildDeliveryKey m.dedupKey)).isSome = true

/-- A delivery has called the provider in `w`; of the rows at most that of its message has
changed in `w'`. -/
structure Sends (choose : World → Choice) (m : MessageToDeliver) (w w' : World) : Prop where
  inbox : ∃ x, w'.inbox = w.inbox ++ [x] ∧ x.message = m
  pending : w'.db.pending = w.db.pending
  idents : w'.db.messages.map MessageRow.ident = w.db.messages.map MessageRow.ident
  row? : ∀ messageId, messageId ≠ m.messageId → w'.row? messageId = w.row? messageId
  undelivered : AllFail choose → FinallyDelivered w' m.messageId → FinallyDelivered w m.messageId
  live : ∀ key, (w'.redis.live key).isSome = ((w.redis.live key).isSome ||
    key == DeliveryDeduplicationService.buildDeliveryKey m.dedupKey)

/-- New rows are not delivered. -/
theorem finallyDelivered_withRows (w : World) (es : List ParsedKafkaMessage) (messageId : String) :
    FinallyDelivered (w.withRows (es.map ParsedKafkaMessage.newRow)) messageId ↔
      FinallyDelivered w messageId := by
  have hrow : (w.withRows (es.map ParsedKafkaMessage.newRow)).row? messageId =
      (w.row? messageId).or ((es.map ParsedKafkaMessage.newRow).find? fun r =>
        r.messageId == messageId) := List.find?_append ..
  unfold FinallyDelivered
  rw [hrow]
  cases w.row? messageId with
  | some row => rfl
  | none =>
      refine iff_of_false ?_ ?_
      · rintro ⟨row, hfind, hfinal⟩
        obtain ⟨e, -, rfl⟩ := List.mem_map.mp (List.mem_of_find?_eq_some hfind)
        cases hfinal
      · rintro ⟨_, hnone, -⟩
        cases hnone

/-- What the deliveries with a repository come to. -/
structure IDeliveryRepository.Delivers (R : IDeliveryRepository) (reads : Bool) : Prop where
  keeps : R.Keeps
  checks : ∀ (uuid : ℕ → String) (choose : World → Choice) (m : MessageToDeliver) (w w' : World),
    (DeliveryProcessorService.alreadyDelivered R m).run (World.handler uuid choose) w =
      (.ok false, w') → ¬ Found reads w m ∧ w'.db = w.db
  spares : ∀ (uuid : ℕ → String) (choose : World → Choice) (provider : IProvider)
    (m : MessageToDeliver) (w : World), Found reads w m →
      ((DeliveryProcessorService.processDelivery R provider m).run
        (World.handler uuid choose) w).2 = w
  sends : ∀ (uuid : ℕ → String) (choose : World → Choice) (provider : IProvider)
    (m : MessageToDeliver) (w : World), w.db.pending = [] → ¬ Found reads w m →
      Sends choose m w ((DeliveryProcessorService.processDelivery R provider m).run
        (World.handler uuid choose) w).2

section Interface

theorem found_iff_blocked {w : World} {m : MessageToDeliver} : Found true w m ↔ Blocked w m := by
  simp [Found, Blocked]

theorem Leaves.sends {choose : World → Choice} {provider : IProvider} {m : MessageToDeliver}
    {outcome : Except JsError ProviderResult} {w w' : World}
    (leaves : Leaves provider m outcome w w') (houtcome : ∃ s, outcome = (choose s).outcome) :
    Sends choose m w w' := by
  refine ⟨⟨_, leaves.inbox, rfl⟩, by rw [leaves.db, Database.afterOutcome_pending],
    leaves.idents, fun _ hne => leaves.row?_of_ne hne, fun fail hdelivered => ?_, leaves.live⟩
  obtain ⟨s, rfl⟩ := houtcome
  obtain ⟨error, herror⟩ := fail s
  rw [herror] at leaves
  exact absurd hdelivered leaves.undelivered

theorem delivers_interfaceRepository : interfaceRepository.Delivers true := by
  refine ⟨keeps_interfaceRepository, fun uuid choose m w w' hrun => ?_,
    fun uuid choose provider m w hfound => ?_, fun uuid choose provider m w hpending hfound => ?_⟩
  · rw [found_iff_blocked]
    by_cases h : Blocked w m
    · rw [DeliveryProcessorService.run_alreadyDelivered_of_blocked uuid choose h] at hrun
      cases hrun
    · rw [DeliveryProcessorService.run_alreadyDelivered_of_unblocked uuid choose h] at hrun
      cases hrun
      exact ⟨h, rfl⟩
  · rw [DeliveryProcessorService.run_of_blocked uuid choose provider (found_iff_blocked.mp hfound)]
  · have idle : ∀ p ∈ w.db.pending, p.2.messageId ≠ m.messageId := by simp [hpending]
    obtain ⟨w', hrun, leaves⟩ := DeliveryProcessorService.run_of_unblocked uuid choose provider idle
      fun h => hfound (found_iff_blocked.mpr h)
    rw [hrun]
    exact leaves.sends ⟨_, rfl⟩

end Interface

section Schema

variable (uuid : ℕ → String) (choose : World → Choice) (w : World)

namespace DeliveryRepository

/-- A refused statement changes nothing. -/
theorem run_refused {α : Type} {st : Statement} {e : JsError} (hcheck : st.check = some e)
    (f : st.Result → Prog α) :
    (withConnection (Connection.execute st >>= f)).run (World.handler uuid choose) w =
      (.error e, w) := by
  simp [withConnection, Connection.run_execute_refused uuid choose w hcheck]

theorem run_saveAttempt (entity : DeliveryAttempt) :
    (deliveryRepository.saveAttempt entity).run (World.handler uuid choose) w =
      (.error (SqlError.badField "error"), w) := by
  have h := run_refused uuid choose w (check_insertAttempt entity) pure
  rwa [bind_pure] at h

theorem run_updateStatus (messageId : String) (status : Status) (finalDelivered : Bool)
    (attempts : Int) :
    (deliveryRepository.updateStatus messageId status finalDelivered attempts).run
        (World.handler uuid choose) w = (.error (SqlError.badField "attempts"), w) := by
  have h := run_refused uuid choose w
    (check_updateMessage messageId status finalDelivered attempts) pure
  rwa [bind_pure] at h

theorem run_getStatus (messageId : String) :
    (deliveryRepository.getStatus messageId).run (World.handler uuid choose) w =
      (.error (SqlError.badField "attempts"), w) :=
  run_refused uuid choose w (check_selectStatus messageId) _

end DeliveryRepository

namespace DeliveryProcessorService

variable {m : MessageToDeliver} (provider : IProvider)

theorem run_alreadyDelivered_through_schema :
    (alreadyDelivered deliveryRepository m).run (World.handler uuid choose) w =
      if (w.redis.live (DeliveryDeduplicationService.buildDeliveryKey m.dedupKey)).isSome then
        (.error (SqlError.badField "attempts"), w)
      else (.ok false, { w with redis := checkedRedis w.redis m.dedupKey }) := by
  simp only [alreadyDelivered, run_bind, run_check, andThen_ok, run_ite]
  cases hlive : (w.redis.live
    (DeliveryDeduplicationService.buildDeliveryKey m.dedupKey)).isSome with
  | false => rfl
  | true =>
      have hredis : checkedRedis w.redis m.dedupKey = w.redis := by rw [checkedRedis, if_pos hlive]
      simp [hredis, DeliveryRepository.run_getStatus]

/-- Writing a failure down fails at once. -/
theorem run_handleFailure_through_schema (currentAttempt : Int) (e : JsError) :
    (handleFailure deliveryRepository m currentAttempt e).run (World.handler uuid choose) w =
      (.error (SqlError.badField "error"), w) := by
  rw [handleFailure, run_bind, DeliveryRepository.run_saveAttempt]
  rfl

end DeliveryProcessorService

theorem delivers_deliveryRepository : deliveryRepository.Delivers false := by
  refine ⟨keeps_deliveryRepository, fun uuid choose m w w' hrun => ?_,
    fun uuid choose provider m w hfound => ?_, fun uuid choose provider m w hpending hfound => ?_⟩
  · rw [DeliveryProcessorService.run_alreadyDelivered_through_schema] at hrun
    split at hrun
    · cases hrun
    · next hlive =>
      cases hrun
      exact ⟨fun hfound => hlive hfound.2, rfl⟩
  · have hrun := DeliveryProcessorService.run_alreadyDelivered_through_schema uuid choose w (m := m)
    rw [if_pos hfound.2] at hrun
    simp [DeliveryProcessorService.processDelivery, DeliveryProcessorService.deliver, hrun,
      DeliveryProcessorService.run_handleFailure_through_schema]
  · have hlive : ¬ (w.redis.live
        (DeliveryDeduplicationService.buildDeliveryKey m.dedupKey)).isSome = true :=
      fun hlive => hfound ⟨fun h => (Bool.false_ne_true h).elim, hlive⟩
    have hrun := DeliveryProcessorService.run_alreadyDelivered_through_schema uuid choose w (m := m)
    rw [if_neg hlive] at hrun
    have hafter : ∃ outcome, ((DeliveryProcessorService.processDelivery deliveryRepository provider
        m).run (World.handler uuid choose) w).2 =
          DeliveryProcessorService.called provider m outcome w := by
      refine ⟨(choose { w with
        redis := DeliveryProcessorService.checkedRedis w.redis m.dedupKey }).outcome, ?_⟩
      simp only [DeliveryProcessorService.processDelivery, DeliveryProcessorService.deliver,
        run_tryCatch, run_bind, hrun, andThen_ok, Bool.false_eq_true, if_false, IProvider.run_send]
      cases (choose { w with
        redis := DeliveryProcessorService.checkedRedis w.redis m.dedupKey }).outcome with
      | ok result =>
          simp only [andThen_ok, run_bind, DeliveryProcessorService.recordSuccess,
            DeliveryRepository.run_updateStatus, andThen_error, orElse_error,
            DeliveryProcessorService.run_handleFailure_through_schema]
          rfl
      | error e =>
          simp only [andThen_error, orElse_error,
            DeliveryProcessorService.run_handleFailure_through_schema]
          rfl
    obtain ⟨outcome, hafter⟩ := hafter
    rw [hafter]
    exact ⟨⟨_, rfl, rfl⟩, rfl, rfl, fun _ _ => rfl, fun _ h => h,
      DeliveryProcessorService.live_checkedRedis w.redis m.dedupKey⟩

end Schema

namespace Worker

/-- The loop goes past an event: it skips it, has no provider for it, or finds it delivered. -/
def Passes (reads : Bool) (channel : String) (duplicates : List DuplicateMessage)
    (e : ParsedKafkaMessage) (s : World) : Prop :=
  Skipped duplicates e ∨ (∀ provider, ProviderFactory.getProvider channel ≠ .ok provider) ∨
    Found reads s e.asMessage

/-- The world that the loop leaves after an event. -/
inductive Reached (reads : Bool) (choose : World → Choice) (channel : String)
    (duplicates : List DuplicateMessage) (e : ParsedKafkaMessage) (s : World) : World → Prop
  | passed : Passes reads channel duplicates e s → Reached reads choose channel duplicates e s s
  | sent {s' : World} : ¬ Passes reads channel duplicates e s → Sends choose e.asMessage s s' →
      Reached reads choose channel duplicates e s s'

theorem Reached.pending {reads : Bool} {choose : World → Choice} {channel : String}
    {duplicates : List DuplicateMessage} {e : ParsedKafkaMessage} {s s' : World}
    (h : Reached reads choose channel duplicates e s s') : s'.db.pending = s.db.pending := by
  cases h with
  | passed _ => rfl
  | sent _ sends => exact sends.pending

theorem run_processMessage_reached {R : IDeliveryRepository} {reads : Bool}
    (delivers : R.Delivers reads) (uuid : ℕ → String) (choose : World → Choice) (channel : String)
    (duplicates : List DuplicateMessage) (e : ParsedKafkaMessage) {s : World}
    (idle : s.db.pending = []) :
    ∃ result s', (processMessage R channel duplicates e).run (World.handler uuid choose) s =
      (.ok result, s') ∧ Reached reads choose channel duplicates e s s' := by
  rw [processMessage]
  split
  · next hskip => exact ⟨_, _, rfl, .passed (.inl hskip)⟩
  · next hskip =>
    cases hprovider : ProviderFactory.getProvider channel with
    | error error =>
        refine ⟨_, _, rfl, .passed (.inr (.inl fun provider h => ?_))⟩
        cases hprovider.symm.trans h
    | ok provider =>
        rw [run_tryCatch, run_bind, run_done, andThen_ok, DeliveryController.handleMessage]
        have hreached : Reached reads choose channel duplicates e s
            ((DeliveryProcessorService.processDelivery R provider e.asMessage).run
              (World.handler uuid choose) s).2 := by
          by_cases hfound : Found reads s e.asMessage
          · rw [delivers.spares uuid choose provider e.asMessage s hfound]
            exact .passed (.inr (.inr hfound))
          · refine .sent ?_ (delivers.sends uuid choose provider e.asMessage s idle hfound)
            rintro (h | h | h)
            · exact hskip h
            · exact h provider hprovider
            · exact hfound h
        cases hrun : (DeliveryProcessorService.processDelivery R provider e.asMessage).run
          (World.handler uuid choose) s with
        | mk o s' =>
            rw [hrun] at hreached
            cases o with
            | ok result => exact ⟨result, s', rfl, hreached⟩
            | error e => exact ⟨_, s', rfl, hreached⟩

end Worker

end Notification
