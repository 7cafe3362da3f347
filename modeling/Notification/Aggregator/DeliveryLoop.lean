import Notification.Aggregator.BatchRun
import Notification.Aggregator.Outcome

/-!
# The delivery loop

One event of a batch is skipped, has no provider, is found delivered, or is tried once.
Every loop over the events is a sequence of these steps.
-/

namespace Notification

open Interaction Program

section Rows

variable {provider : IProvider} {m : MessageToDeliver}
  {outcome : Except JsError ProviderResult} {s s' : World} {messageId : String}

/-- A delivery changes the row of its message. -/
theorem Leaves.row? (leaves : Leaves provider m outcome s s') (messageId : String) :
    s'.row? messageId = (s.row? messageId).map fun r =>
      if r.messageId = m.messageId then
        { r with status := statusAfter m outcome, finalDelivered := outcome.isOk,
                 attemptCount := m.attempt + 1 }
      else r := by
  rw [World.row?, leaves.db, Database.afterOutcome_messages, Database.updateStatus, List.find?_map]
  congr 2
  funext r
  simp only [Function.comp]
  split <;> rfl

theorem Leaves.row?_of_ne (leaves : Leaves provider m outcome s s') (h : messageId ≠ m.messageId) :
    s'.row? messageId = s.row? messageId := by
  rw [leaves.row?]
  cases hrow : s.row? messageId with
  | none => rfl
  | some row =>
      have hid : row.messageId = messageId := by simpa using List.find?_some hrow
      rw [Option.map_some, if_neg (hid ▸ h)]

/-- A delivery leaves all rows in place. -/
theorem Leaves.idents (leaves : Leaves provider m outcome s s') :
    s'.db.messages.map MessageRow.ident = s.db.messages.map MessageRow.ident := by
  rw [leaves.db, Database.afterOutcome_messages, Database.updateStatus, List.map_map]
  exact List.map_congr_left fun r _ =>
    r.ident_updated m.messageId (statusAfter m outcome) outcome.isOk (m.attempt + 1)

/-- A failed delivery leaves its row undelivered. -/
theorem Leaves.undelivered {e : JsError} (leaves : Leaves provider m (.error e) s s') :
    ¬ FinallyDelivered s' m.messageId := by
  rintro ⟨row, hrow, hdelivered⟩
  rw [leaves.row?] at hrow
  obtain ⟨row₀, hrow₀, rfl⟩ := Option.map_eq_some_iff.mp hrow
  have hid : row₀.messageId = m.messageId := by simpa using List.find?_some hrow₀
  rw [if_pos hid] at hdelivered
  cases hdelivered

end Rows

namespace Worker

section Step

variable (choose : World → Choice) (channel : String) (duplicates : List DuplicateMessage)

/-- One of the duplicates has the `messageId` of the event. -/
def Skipped (e : ParsedKafkaMessage) : Prop :=
  (duplicates.any fun dm => dm.messageId == e.messageId) = true

instance (e : ParsedKafkaMessage) : Decidable (Skipped duplicates e) :=
  inferInstanceAs (Decidable (_ = true))

/-- What the loop does about one event: its result, and the world it leaves. -/
inductive Processed (e : ParsedKafkaMessage) (s : World) : ProcessResult → World → Prop
  | skipped : Skipped duplicates e →
      Processed e s { success := true, shouldRetry := false, isDuplicate := true } s
  | unknown : ¬ Skipped duplicates e →
      (∀ provider, ProviderFactory.getProvider channel ≠ .ok provider) →
      Processed e s { success := false, shouldRetry := true } s
  | blocked {provider : IProvider} : ¬ Skipped duplicates e →
      ProviderFactory.getProvider channel = .ok provider → Blocked s e.asMessage →
      Processed e s { success := true, shouldRetry := false, isDuplicate := true } s
  | tried {provider : IProvider} {outcome : Except JsError ProviderResult} {s' : World} :
      ¬ Skipped duplicates e → ProviderFactory.getProvider channel = .ok provider →
      ¬ Blocked s e.asMessage → (∃ s₁, outcome = (choose s₁).outcome) →
      Leaves provider e.asMessage outcome s s' →
      Processed e s
        { success := outcome.isOk, shouldRetry := leavesRetry e.asMessage outcome } s'

variable {choose channel duplicates}

variable (uuid : ℕ → String) (choose channel duplicates)

/-- The loop never throws, and each of its steps is one of the four. -/
theorem run_processMessage (e : ParsedKafkaMessage) {s : World} (idle : s.db.pending = []) :
    ∃ result s', (processMessage interfaceRepository channel duplicates e).run
        (World.handler uuid choose) s = (.ok result, s') ∧
      Processed choose channel duplicates e s result s' := by
  rw [processMessage]
  split
  · next hskip => exact ⟨_, _, rfl, .skipped hskip⟩
  · next hskip =>
    cases hprovider : ProviderFactory.getProvider channel with
    | error error =>
        refine ⟨_, _, rfl, .unknown hskip fun provider h => ?_⟩
        cases hprovider.symm.trans h
    | ok provider =>
        rw [run_tryCatch, run_bind, run_done, andThen_ok, DeliveryController.handleMessage]
        by_cases hblocked : Blocked s e.asMessage
        · rw [DeliveryProcessorService.run_of_blocked uuid choose provider hblocked]
          exact ⟨_, _, rfl, .blocked hskip hprovider hblocked⟩
        · have hidle : ∀ p ∈ s.db.pending, p.2.messageId ≠ e.asMessage.messageId := by simp [idle]
          obtain ⟨s', hrun, leaves⟩ :=
            DeliveryProcessorService.run_of_unblocked uuid choose provider hidle hblocked
          rw [hrun]
          exact ⟨_, s', rfl, .tried hskip hprovider hblocked ⟨_, rfl⟩ leaves⟩

end Step

end Worker

end Notification
