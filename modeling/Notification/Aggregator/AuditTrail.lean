import Notification.Aggregator.DeliveryCalls
import Notification.Aggregator.Terminal

/-!
# What the audit trail says about a provider call

One `catch` covers everything from the status lookup to the log record of a success, and
the `success` flag of the provider's answer is not read. So a row of `delivery_attempts` can
stand for a call that was never made, and a provider that declines is recorded as a success.

A call may throw although it has been carried out, so what has been done is written down
beside what has been answered.
-/

namespace Notification

open Interaction Program

namespace Auditing

/-! ## What has been done -/

/-- A call with its answer, and whether it has been carried out. -/
structure Deed where
  event : CallEvent
  done : Bool

/-- The ways a call can go: it is answered, it throws and is lost, or it throws and has been
carried out. -/
inductive Takes (uuid : ℕ → String) (pid : ℕ) (w : World) : Deed → World → Prop
  | answered {ev : CallEvent} {w' : World} : w.up uuid pid ev w' → Takes uuid pid w ⟨ev, true⟩ w'
  | lost {c : Call} (e : JsError) :
      World.external c = true → Takes uuid pid w ⟨⟨c, .error e⟩, false⟩ w
  | unanswered {c : Call} {r : Except JsError (Reply c)} {w' : World} (e : JsError) :
      World.external c = true → w.up uuid pid ⟨c, r⟩ w' →
      Takes uuid pid w ⟨⟨c, .error e⟩, true⟩ w'

/-- These are the ways of a world in which every call may fail. -/
theorem lossy_iff_takes {uuid : ℕ → String} {pid : ℕ} {w w' : World} {ev : CallEvent} :
    w.lossy uuid pid ev w' ↔ ∃ done, Takes uuid pid w ⟨ev, done⟩ w' := by
  obtain ⟨c, r⟩ := ev
  constructor
  · rintro ((up | ⟨isExternal, rfl, e, he⟩) | ⟨isExternal, ⟨e, he⟩, r', up⟩)
    · exact ⟨true, .answered up⟩
    · obtain rfl : r = .error e := he
      exact ⟨false, .lost e isExternal⟩
    · obtain rfl : r = .error e := he
      exact ⟨true, .unanswered e isExternal up⟩
  · rintro ⟨done, takes⟩
    cases takes with
    | answered up => exact .inl (.inl up)
    | lost e isExternal => exact .inl (.inr ⟨isExternal, rfl, e, rfl⟩)
    | unanswered e isExternal up => exact .inr ⟨isExternal, ⟨e, rfl⟩, _, up⟩

/-- What is lost has thrown. -/
theorem Takes.failed {uuid : ℕ → String} {pid : ℕ} {w w' : World} {c : Call}
    {r : Except JsError (Reply c)} (h : Takes uuid pid w ⟨⟨c, r⟩, false⟩ w') :
    ∃ e, r = .error e := by
  cases h with
  | lost e _ => exact ⟨e, rfl⟩

/-- Any call may throw, carried out or not, and all deeds are written down. -/
def audited (uuid : ℕ → String) (pid : ℕ) : Env Reply JsError (World × List Deed) :=
  fun s ev s' => ∃ done, Takes uuid pid s.1 ⟨ev, done⟩ s'.1 ∧ s'.2 = ⟨ev, done⟩ :: s.2

/-! ## The calls that matter -/

/-- The provider has resolved with this `success`. -/
def resolved (success : Bool) : Deed → Bool
  | ⟨⟨.send .., .ok result⟩, _⟩ => result.success == success
  | _ => false

def rejected : Deed → Bool
  | ⟨⟨.send .., .error _⟩, _⟩ => true
  | _ => false

/-- The row of the message has been set to `SENT`. -/
def marksSent : Deed → Bool
  | ⟨⟨.repository (.updateStatus _ .sent _ _), _⟩, true⟩ => true
  | _ => false

/-- The row that a call has added to `delivery_attempts`. -/
def savedAttempt : Deed → Option DeliveryAttempt
  | ⟨⟨.repository (.saveAttempt entity), _⟩, true⟩ => some entity
  | _ => none

/-- The status of the message could not be read. -/
def lookupThrows : Deed → Bool
  | ⟨⟨.repository (.getStatus _), .error _⟩, _⟩ => true
  | _ => false

/-- The row of the message could not be set to `SENT`. -/
def markLost : Deed → Bool
  | ⟨⟨.repository (.updateStatus _ .sent _ _), _⟩, false⟩ => true
  | _ => false

/-- Setting the row to `SENT` has thrown. -/
def markThrows : Deed → Bool
  | ⟨⟨.repository (.updateStatus _ .sent _ _), .error _⟩, _⟩ => true
  | _ => false

/-- The response of the provider could not be printed. -/
def printThrows : Deed → Bool
  | ⟨⟨.stringify _, .error _⟩, _⟩ => true
  | _ => false

/-- Saving the `SUCCESS` row has thrown. -/
def auditThrows : Deed → Bool
  | ⟨⟨.repository (.saveAttempt entity), .error _⟩, _⟩ => entity.status == .success
  | _ => false

/-- The `FAILED` row could not be saved. -/
def auditLost : Deed → Bool
  | ⟨⟨.repository (.saveAttempt entity), _⟩, false⟩ => entity.status == .failed
  | _ => false

/-- The publication of the log record of a success has thrown. -/
def logThrows : Deed → Bool
  | ⟨⟨.produce _ _ value _, .error _⟩, _⟩ =>
    (value.get? "status").bind Json.string? == some "SENT"
  | _ => false

/-- The rows added to `delivery_attempts`, in order. -/
def savedAttempts (t : List Deed) : List DeliveryAttempt := t.reverse.filterMap savedAttempt

/-- The audit trail of one execution tells how the provider call ended. -/
structure Truthful (m : MessageToDeliver) (w w' : World) (t : List Deed) : Prop where
  attempts : ∃ added, w'.db.deliveryAttempts = w.db.deliveryAttempts ++ added ∧ added.length ≤ 1 ∧
    ∀ a ∈ added, a.messageId = m.messageId ∧ a.attemptNumber = m.attempt + 1 ∧
      (a.status = .success → t.any (resolved true) = true) ∧
      (a.status = .failed → t.any rejected = true ∨ t.any (resolved false) = true)
  sent : t.any marksSent = true → t.any (resolved true) = true

/-- The failures that do no harm to the audit trail: a declined message is not marked as
sent, and the `FAILED` row is not written unless the provider was called and nothing has
thrown after it accepted the message. -/
structure Harmless (t : List Deed) : Prop where
  declined : t.any (resolved false) = true → t.any markLost = true
  recorded : t.any auditLost = true ∨ (t.any lookupThrows = false ∧
    (t.any (resolved true) = true → t.any markThrows = false ∧ t.any printThrows = false ∧
      t.any auditThrows = false ∧ t.any logThrows = false))

/-! ## How an execution goes -/

/-- Everything that the two statements above see of a trace. -/
structure Summary where
  accepted : Bool := false
  declined : Bool := false
  rejected : Bool := false
  marked : Bool := false
  saved : List DeliveryAttempt := []
  lookupThrew : Bool := false
  markLost : Bool := false
  markThrew : Bool := false
  printThrew : Bool := false
  successThrew : Bool := false
  logThrew : Bool := false
  failedLost : Bool := false

def summary (t : List Deed) : Summary where
  accepted := t.any (resolved true)
  declined := t.any (resolved false)
  rejected := t.any rejected
  marked := t.any marksSent
  saved := savedAttempts t
  lookupThrew := t.any lookupThrows
  markLost := t.any markLost
  markThrew := t.any markThrows
  printThrew := t.any printThrows
  successThrew := t.any auditThrows
  logThrew := t.any logThrows
  failedLost := t.any auditLost

@[simp] theorem savedAttempts_cons (d : Deed) (t : List Deed) :
    savedAttempts (d :: t) = savedAttempts t ++ (savedAttempt d).toList := by
  rw [savedAttempts, List.reverse_cons, List.filterMap_append, savedAttempts]
  cases h : savedAttempt d <;> simp [h]

/-- One more deed. -/
def Summary.after (σ : Summary) (d : Deed) : Summary where
  accepted := resolved true d || σ.accepted
  declined := resolved false d || σ.declined
  rejected := Auditing.rejected d || σ.rejected
  marked := marksSent d || σ.marked
  saved := σ.saved ++ (savedAttempt d).toList
  lookupThrew := lookupThrows d || σ.lookupThrew
  markLost := Auditing.markLost d || σ.markLost
  markThrew := markThrows d || σ.markThrew
  printThrew := printThrows d || σ.printThrew
  successThrew := auditThrows d || σ.successThrew
  logThrew := logThrows d || σ.logThrew
  failedLost := auditLost d || σ.failedLost

theorem summary_cons (d : Deed) (t : List Deed) : summary (d :: t) = (summary t).after d := by
  simp [summary, Summary.after]

namespace Summary

variable (m : MessageToDeliver) (σ : Summary)

def Truthful : Prop :=
  σ.saved.length ≤ 1 ∧
  (∀ a ∈ σ.saved, a.messageId = m.messageId ∧ a.attemptNumber = m.attempt + 1 ∧
    (a.status = .success → σ.accepted = true) ∧
    (a.status = .failed → σ.rejected = true ∨ σ.declined = true)) ∧
  (σ.marked = true → σ.accepted = true)

def Harmless : Prop :=
  (σ.declined = true → σ.markLost = true) ∧
  (σ.failedLost = true ∨ (σ.lookupThrew = false ∧
    (σ.accepted = true → σ.markThrew = false ∧ σ.printThrew = false ∧ σ.successThrew = false ∧
      σ.logThrew = false)))

end Summary

theorem harmless_iff {t : List Deed} : Harmless t ↔ (summary t).Harmless :=
  ⟨fun h => ⟨h.declined, h.recorded⟩, fun h => ⟨h.1, h.2⟩⟩

theorem truthful_iff {m : MessageToDeliver} {w w' : World} {t : List Deed}
    (h : w'.db.deliveryAttempts = w.db.deliveryAttempts ++ savedAttempts t) :
    Truthful m w w' t ↔ (summary t).Truthful m := by
  constructor
  · rintro ⟨⟨added, hadded, hlength, hrows⟩, hsent⟩
    obtain rfl : added = savedAttempts t := List.append_cancel_left (hadded.symm.trans h)
    exact ⟨hlength, hrows, hsent⟩
  · rintro ⟨hlength, hrows, hsent⟩
    exact ⟨⟨_, h, hlength, hrows⟩, hsent⟩

section Traces

variable {uuid : ℕ → String} {pid : ℕ} {m : MessageToDeliver} {n : Int} {σ : Summary}
  {s : World × List Deed} {provider : IProvider}

/-- How the `try` block can be left by a throw. -/
inductive Thrown (m : MessageToDeliver) (n : Int) : Summary → Prop
  | lookup : Thrown m n { lookupThrew := true }
  | rejected : Thrown m n { rejected := true }
  | mark (success done : Bool) :
      Thrown m n { accepted := success, declined := !success, marked := done, markLost := !done,
                   markThrew := true }
  | print (success : Bool) :
      Thrown m n { accepted := success, declined := !success, marked := true, printThrew := true }
  | audit (success done : Bool) (response : Option String) :
      Thrown m n
        { accepted := success, declined := !success, marked := true, successThrew := true,
          saved := if done then [DeliveryProcessorService.successAttempt m n response] else [] }
  | log (success : Bool) (response : Option String) :
      Thrown m n { accepted := success, declined := !success, marked := true, logThrew := true,
                   saved := [DeliveryProcessorService.successAttempt m n response] }

/-- How it can be left without one. -/
inductive Finished (m : MessageToDeliver) (n : Int) : Summary → Prop
  | duplicate : Finished m n {}
  | recorded (success : Bool) (response : Option String) :
      Finished m n { accepted := success, declined := !success, marked := true,
                     saved := [DeliveryProcessorService.successAttempt m n response] }

theorem Finished.truthful_iff (h : Finished m (m.attempt + 1) σ) : σ.Truthful m ↔ σ.Harmless := by
  cases h with
  | duplicate => simp [Summary.Truthful, Summary.Harmless]
  | recorded success response =>
      cases success <;>
        simp [Summary.Truthful, Summary.Harmless, DeliveryProcessorService.successAttempt]

/-- The `FAILED` row could not be saved. -/
theorem Thrown.truthful_iff_lost (h : Thrown m (m.attempt + 1) σ) :
    { σ with failedLost := true }.Truthful m ↔ { σ with failedLost := true }.Harmless := by
  cases h with
  | lookup => simp [Summary.Truthful, Summary.Harmless]
  | rejected => simp [Summary.Truthful, Summary.Harmless]
  | mark success done => cases success <;> cases done <;> simp [Summary.Truthful, Summary.Harmless]
  | print success => cases success <;> simp [Summary.Truthful, Summary.Harmless]
  | audit success done response =>
      cases success <;> cases done <;>
        simp [Summary.Truthful, Summary.Harmless, DeliveryProcessorService.successAttempt]
  | log success response =>
      cases success <;>
        simp [Summary.Truthful, Summary.Harmless, DeliveryProcessorService.successAttempt]

/-- The `FAILED` row has been saved. -/
theorem Thrown.truthful_iff_saved (h : Thrown m (m.attempt + 1) σ) (error : JsError) :
    let σ' := { σ with saved := σ.saved ++
      [DeliveryProcessorService.failedAttempt m (m.attempt + 1) error] }
    σ'.Truthful m ↔ σ'.Harmless := by
  cases h with
  | lookup => simp [Summary.Truthful, Summary.Harmless, DeliveryProcessorService.failedAttempt]
  | rejected => simp [Summary.Truthful, Summary.Harmless, DeliveryProcessorService.failedAttempt]
  | mark success done =>
      cases success <;> cases done <;>
        simp [Summary.Truthful, Summary.Harmless, DeliveryProcessorService.failedAttempt]
  | print success =>
      cases success <;>
        simp [Summary.Truthful, Summary.Harmless, DeliveryProcessorService.failedAttempt]
  | audit success done response =>
      cases success <;> cases done <;>
        simp [Summary.Truthful, Summary.Harmless, DeliveryProcessorService.failedAttempt]
  | log success response => cases success <;> simp [Summary.Truthful, Summary.Harmless]

/-! ## One execution -/

/-- The event is none of those that the summary counts, whether it is carried out or not. -/
def Neutral (ev : CallEvent) : Prop := ∀ (σ : Summary) (done : Bool), σ.after ⟨ev, done⟩ = σ

theorem neutral_redis (c : RedisCall) (r : Except JsError (Reply (.redis c))) :
    Neutral ⟨.redis c, r⟩ :=
  fun σ done => by simp [Summary.after, resolved, rejected, marksSent, savedAttempt, lookupThrows,
    markLost, markThrows, printThrows, auditThrows, auditLost, logThrows]

theorem neutral_now (r : Except JsError Int) : Neutral ⟨.now, r⟩ :=
  fun σ done => by simp [Summary.after, resolved, rejected, marksSent, savedAttempt, lookupThrows,
    markLost, markThrows, printThrows, auditThrows, auditLost, logThrows]

theorem neutral_saveDLQEntry (entity : DLQEntry) (r : Except JsError Unit) :
    Neutral ⟨.repository (.saveDLQEntry entity), r⟩ :=
  fun σ done => by simp [Summary.after, resolved, rejected, marksSent, savedAttempt, lookupThrows,
    markLost, markThrows, printThrows, auditThrows, auditLost, logThrows]

theorem neutral_updateStatus {status : Status} (h : status ≠ .sent) (messageId : String)
    (finalDelivered : Bool) (attempts : Int) (r : Except JsError Unit) :
    Neutral ⟨.repository (.updateStatus messageId status finalDelivered attempts), r⟩ :=
  fun σ done => by cases status <;> simp [Summary.after, resolved, rejected, marksSent,
    savedAttempt, lookupThrows, markLost, markThrows, printThrows, auditThrows, auditLost,
    logThrows] at h ⊢

theorem after_produce (topic : String) (key : Option Json) (value : Json)
    (headers : List (String × String)) (r : Except JsError Unit) (done : Bool) :
    σ.after ⟨⟨.produce topic key value headers, r⟩, done⟩ =
      { σ with
        logThrew := logThrows ⟨⟨.produce topic key value headers, r⟩, done⟩ || σ.logThrew } := by
  simp [Summary.after, resolved, rejected, marksSent, savedAttempt, lookupThrows, markLost,
    markThrows, printThrows, auditThrows, auditLost]

/-- A record that is not the log record of a success. -/
theorem neutral_produce {value : Json}
    (h : (value.get? "status").bind Json.string? ≠ some "SENT") (topic : String)
    (key : Option Json) (headers : List (String × String)) (r : Except JsError Unit) :
    Neutral ⟨.produce topic key value headers, r⟩ := fun σ done => by
  have hlog : logThrows ⟨⟨.produce topic key value headers, r⟩, done⟩ = false := by
    cases r with
    | error e => exact beq_false_of_ne h
    | ok _ => rfl
  rw [after_produce, hlog, Bool.false_or]

theorem status_deliveryLog (m : MessageToDeliver) (status text : String) (attempt : Int)
    (error : Json) : (deliveryLog m status text attempt error).get? "status" =
      some (.string status) := by
  rw [deliveryLog, Json.get?_ofFields _ (by simp)]
  rfl

/-- One call. What is lost has thrown. -/
theorem wp_event {c : Call} {Q : Except JsError (Reply c) → World × List Deed → Prop}
    (h : summary s.2 = σ) (next : ∀ r done s', (done = false → ∃ e, r = .error e) →
      summary s'.2 = σ.after ⟨⟨c, r⟩, done⟩ → Q r s') :
    (perform c : Prog (Reply c)).wp (audited uuid pid) (fun _ => True) Q s := by
  rintro r s' ⟨done, takes, htrace⟩
  refine ⟨trivial, next r done s' ?_ ?_⟩
  · rintro rfl
    exact takes.failed
  · rw [htrace, summary_cons, h]

/-- One call that does not matter. -/
theorem wp_neutral {c : Call} {Q : Except JsError (Reply c) → World × List Deed → Prop}
    (neutral : ∀ r, Neutral ⟨c, r⟩) (h : summary s.2 = σ)
    (next : ∀ r s', summary s'.2 = σ → Q r s') :
    (perform c : Prog (Reply c)).wp (audited uuid pid) (fun _ => True) Q s :=
  wp_event h fun r done s' _ h' => next r s' (h'.trans (neutral r σ done))

theorem wp_checkDeliveryDedup (h : summary s.2 = σ) :
    (DeliveryDeduplicationService.checkDeliveryDedup m.dedupKey).wp (audited uuid pid)
      (fun _ => True) (either (fun _ s' => summary s'.2 = σ) fun _ _ => False) s := by
  rw [DeliveryDeduplicationService.checkDeliveryDedup, wp_tryCatch, wp_bind]
  apply wp_neutral (neutral_redis _) h
  intro r s h
  cases r with
  | error e => exact h
  | ok n =>
      rw [either_ok, wp_ite]
      refine ⟨fun _ => h, fun _ => ?_⟩
      rw [wp_bind]
      apply wp_neutral (neutral_redis _) h
      intro r s h
      cases r with
      | error e => exact h
      | ok b => exact h

theorem wp_alreadyDelivered (h : summary s.2 = {}) :
    (DeliveryProcessorService.alreadyDelivered interfaceRepository m).wp
      (audited uuid pid) (fun _ => True)
      (either (fun _ s' => summary s'.2 = {}) fun _ s' => Thrown m n (summary s'.2)) s := by
  rw [DeliveryProcessorService.alreadyDelivered, wp_bind]
  apply mono_post (wp_checkDeliveryDedup h)
  intro o s h
  cases o with
  | error e => exact h.elim
  | ok isNew =>
      rw [either_ok, wp_ite]
      refine ⟨fun _ => h, fun _ => ?_⟩
      rw [wp_bind]
      apply wp_event h
      intro r done s _ h
      cases r with
      | error e => exact (congrArg (Thrown m n) h).mpr .lookup
      | ok status => exact h

/-- The last step of a success. -/
theorem wp_publishSentLog {success : Bool} {response : Option String} (h : summary s.2 = {
      accepted := success, declined := !success, marked := true,
      saved := [DeliveryProcessorService.successAttempt m n response] }) {text : String} :
    (EventPublisherService.publishLog (deliveryLog m "SENT" text n .null)).wp
      (audited uuid pid) (fun _ => True)
      (either (fun _ s' => Finished m n (summary s'.2)) fun _ s' => Thrown m n (summary s'.2))
      s := by
  apply wp_event h
  intro r done s _ h
  rw [after_produce] at h
  cases r with
  | error e =>
      rw [show logThrows _ = true by simp [logThrows, status_deliveryLog, Json.string?]] at h
      exact (congrArg (Thrown m n) h).mpr (.log success response)
  | ok _ => exact (congrArg (Finished m n) h).mpr (.recorded success response)

/-- After the provider has resolved. -/
theorem wp_recordSuccess (result : ProviderResult)
    (h : summary s.2 = { accepted := result.success, declined := !result.success }) :
    (DeliveryProcessorService.recordSuccess interfaceRepository m n result).wp
      (audited uuid pid) (fun _ => True)
      (either (fun _ s' => Finished m n (summary s'.2)) fun _ s' => Thrown m n (summary s'.2))
      s := by
  rw [DeliveryProcessorService.recordSuccess, wp_bind]
  apply wp_event h
  intro r done s carried h
  cases r with
  | error e =>
      have thrown : Thrown m n _ := .mark result.success done
      cases done <;> exact (congrArg (Thrown m n) h).mpr thrown
  | ok _ =>
      obtain rfl : done = true := by
        cases done with
        | true => rfl
        | false => exact absurd (carried rfl) (by simp)
      rw [either_ok, wp_bind]
      apply wp_event h
      intro r done s _ h
      cases r with
      | error e => exact (congrArg (Thrown m n) h).mpr (.print result.success)
      | ok response =>
          rw [either_ok, wp_bind]
          apply wp_event h
          intro r done s carried h
          cases r with
          | error e =>
              have thrown : Thrown m n _ := .audit result.success done response
              cases done <;> exact (congrArg (Thrown m n) h).mpr thrown
          | ok _ =>
              obtain rfl : done = true := by
                cases done with
                | true => rfl
                | false => exact absurd (carried rfl) (by simp)
              rw [either_ok, wp_bind, DeliveryDeduplicationService.setDeliveredCache, wp_tryCatch]
              apply wp_neutral (neutral_redis _) h
              intro r s h
              cases r with
              | error e => exact wp_publishSentLog h
              | ok _ => exact wp_publishSentLog h

theorem wp_deliver {w : World} :
    (DeliveryProcessorService.deliver interfaceRepository provider m n).wp
      (audited uuid pid) (fun _ => True)
      (either (fun _ s => Finished m n (summary s.2)) fun _ s => Thrown m n (summary s.2))
      (w, []) := by
  rw [DeliveryProcessorService.deliver, wp_bind]
  apply mono_post (wp_alreadyDelivered (n := n) rfl)
  intro o s h
  cases o with
  | error e => exact h
  | ok delivered =>
      rw [either_ok, wp_ite]
      refine ⟨fun _ => (congrArg (Finished m n) h).mpr .duplicate, fun _ => ?_⟩
      rw [wp_bind]
      apply wp_event h
      intro r done s _ h
      cases r with
      | error e => exact (congrArg (Thrown m n) h).mpr .rejected
      | ok result =>
          rw [either_ok, wp_bind]
          have hresult : summary s.2 =
            { accepted := result.success, declined := !result.success } := by
            rw [h]
            cases hsuccess : result.success <;>
              simp [Summary.after, resolved, rejected, marksSent, savedAttempt, lookupThrows,
                markLost, markThrows, printThrows, auditThrows, auditLost, logThrows, hsuccess]
          apply mono_post (wp_recordSuccess result hresult)
          intro o s h
          cases o with
          | error e => exact h
          | ok _ => exact h

/-- What follows the `FAILED` row does not matter. -/
theorem neutral_retry {ev : CallEvent} (h : DeliveryProcessorService.RetryCall m n ev.call) :
    Neutral ev := by
  obtain ⟨call, r⟩ := ev
  cases h with
  | markPending => exact neutral_updateStatus (by decide) _ _ _ r
  | now => exact neutral_now r
  | zAdd due => exact neutral_redis _ r
  | publishLog key text error =>
      exact neutral_produce (by simp [status_deliveryLog, Json.string?]) _ _ _ r

theorem neutral_bury {errorMsg : String} {ev : CallEvent}
    (h : DeliveryProcessorService.BuryCall m n errorMsg ev.call) : Neutral ev := by
  obtain ⟨call, r⟩ := ev
  cases h with
  | markFailed => exact neutral_updateStatus (by decide) _ _ _ r
  | saveDLQEntry => exact neutral_saveDLQEntry _ r
  | publishDLQMessage =>
      refine neutral_produce ?_ _ _ _ r
      rw [Json.get?_ofFields _ (by simp)]
      simp [List.lookup_cons]
  | publishLog key text error =>
      exact neutral_produce (by simp [status_deliveryLog, Json.string?]) _ _ _ r
  | publishError key =>
      refine neutral_produce ?_ _ _ _ r
      rw [deliveryError, Json.get?_ofFields _ (by simp)]
      simp [List.lookup_cons]

/-- A part of the execution that does not matter. -/
theorem wp_rest {α : Type} {S : CallEvent → Prop} {p : Prog α} (makes : p.Makes S)
    (neutral : ∀ ev, S ev → Neutral ev) :
    p.wp (audited uuid pid) (fun _ => True) (fun _ s' => summary s'.2 = summary s.2) s := by
  have keep : ∀ v ev v', audited uuid pid v ev v' → S ev → summary v.2 = summary s.2 →
      summary v'.2 = summary s.2 := by
    rintro v ev v' ⟨done, -, htrace⟩ hev hsame
    rw [htrace, summary_cons, neutral ev hev, hsame]
  exact mono_wp (makes.keeps keep rfl) (fun _ _ => trivial) fun _ _ h => h

theorem wp_processDelivery {w : World} :
    (DeliveryProcessorService.processDelivery interfaceRepository provider m).wp
      (audited uuid pid) (fun _ => True)
      (fun _ s => (summary s.2).Truthful m ↔ (summary s.2).Harmless) (w, []) := by
  rw [DeliveryProcessorService.processDelivery, wp_tryCatch]
  apply mono_post wp_deliver
  intro o s h
  cases o with
  | ok _ => exact Finished.truthful_iff h
  | error error =>
      have h : Thrown m (m.attempt + 1) (summary s.2) := h
      rw [either_error, DeliveryProcessorService.handleFailure, wp_bind]
      apply wp_event rfl
      intro r done s' carried h'
      have hsummary : summary s'.2 = if done then { summary s.2 with saved := (summary s.2).saved ++
          [DeliveryProcessorService.failedAttempt m (m.attempt + 1) error] }
          else { summary s.2 with failedLost := true } := by
        rw [h']
        cases r <;> cases done <;>
          simp [Summary.after, resolved, rejected, marksSent, savedAttempt, lookupThrows, markLost,
            markThrows, printThrows, auditThrows, auditLost, logThrows,
            DeliveryProcessorService.failedAttempt]
      have settled : (summary s'.2).Truthful m ↔ (summary s'.2).Harmless := by
        rw [hsummary]
        cases done with
        | true => exact h.truthful_iff_saved error
        | false => exact h.truthful_iff_lost
      cases r with
      | error e => exact settled
      | ok _ =>
          rw [either_ok, wp_ite]
          exact ⟨fun _ => mono_post
            (wp_rest (DeliveryProcessorService.calls_handleMaxAttemptsReached m _ _)
              fun _ => neutral_bury) fun _ _ hsame => hsame ▸ settled,
            fun _ => mono_post (wp_rest (DeliveryProcessorService.calls_handleRetry m _ _)
              fun _ => neutral_retry) fun _ _ hsame => hsame ▸ settled⟩

end Traces

/-! ## The rows of `delivery_attempts` -/

variable {uuid : ℕ → String} {pid : ℕ} {w w' : World} {t : List Deed}

/-- Outside of SQL statements only `saveAttempt` adds a row. -/
theorem attempts_of_up {ev : CallEvent} (h : w.up uuid pid ev w')
    (notSql : ∀ c, ev.call ≠ .sql c) :
    w'.db.deliveryAttempts = w.db.deliveryAttempts ++ (savedAttempt ⟨ev, true⟩).toList := by
  obtain ⟨call, r⟩ := ev
  obtain ⟨choice, h⟩ := h
  cases call with
  | sql c => exact absurd rfl (notSql c)
  | repository c =>
      obtain ⟨⟨r', db⟩, hanswer, heq⟩ := Option.map_eq_some_iff.mp h
      cases heq
      cases c with
      | updateStatus messageId status finalDelivered attempts =>
          simp only [Database.repository] at hanswer
          split at hanswer <;> cases hanswer
          simp [savedAttempt, Database.updateStatus]
      | saveAttempt entity =>
          cases hanswer
          rfl
      | _ =>
          cases hanswer
          simp [savedAttempt]
  | _ =>
      cases h
      simp [savedAttempt]

/-- What a call adds does not depend on its answer. -/
theorem attempts_of_takes {d : Deed} (h : Takes uuid pid w d w')
    (notSql : ∀ c, d.event.call ≠ .sql c) :
    w'.db.deliveryAttempts = w.db.deliveryAttempts ++ (savedAttempt d).toList := by
  cases h with
  | answered up => exact attempts_of_up up notSql
  | @lost c e _ => cases c <;> simp [savedAttempt]
  | @unanswered c r w' e _ up =>
      rw [attempts_of_up up notSql]
      cases c with
      | repository c => cases c <;> rfl
      | _ => rfl

/-- A delivery with the interface's repository makes no SQL statement. -/
theorem notSql_processDelivery {provider : IProvider} {m : MessageToDeliver} :
    (DeliveryProcessorService.processDelivery interfaceRepository provider m).Makes
      fun ev => ∀ c, ev.call ≠ .sql c := by
  refine Makes.tryCatch ((DeliveryProcessorService.calls_deliver m _ provider).mono fun ev h => ?_)
    fun error => Makes.bind (makes_perform.mpr fun _ _ h => by cases h) fun _ => Makes.ite ?_ ?_
  · obtain ⟨call, r⟩ := ev
    cases h <;> simp
  · apply (DeliveryProcessorService.calls_handleMaxAttemptsReached m _ _).mono
    rintro ⟨call, r⟩ h
    cases h <;> simp
  · apply (DeliveryProcessorService.calls_handleRetry m _ _).mono
    rintro ⟨call, r⟩ h
    cases h <;> simp

theorem attempts_of_leads {provider : IProvider} {m : MessageToDeliver}
    {o : Except JsError ProcessResult}
    (run : Leads (audited uuid pid)
      (DeliveryProcessorService.processDelivery interfaceRepository provider m) (w, [])
      (.done o) (w', t)) :
    w'.db.deliveryAttempts = w.db.deliveryAttempts ++ savedAttempts t := by
  have keep : ∀ s ev s', audited uuid pid s ev s' → (∀ c, ev.call ≠ .sql c) →
      s.1.db.deliveryAttempts = w.db.deliveryAttempts ++ savedAttempts s.2 →
      s'.1.db.deliveryAttempts = w.db.deliveryAttempts ++ savedAttempts s'.2 := by
    rintro s ev s' ⟨done, takes, htrace⟩ notSql hs
    rw [attempts_of_takes takes notSql, hs, htrace, savedAttempts_cons, List.append_assoc]
  exact (notSql_processDelivery.keeps keep (by simp [savedAttempts])).outcome run

/-- The audit trail of an execution is truthful exactly if no failure does harm to it. -/
theorem processDelivery_truthful_iff {provider : IProvider} {m : MessageToDeliver}
    {o : Except JsError ProcessResult}
    (run : Leads (audited uuid pid)
      (DeliveryProcessorService.processDelivery interfaceRepository provider m) (w, [])
      (.done o) (w', t)) : Truthful m w w' t ↔ Harmless t := by
  rw [truthful_iff (attempts_of_leads run), harmless_iff]
  exact wp_processDelivery.outcome run

/-- Calls are answered if they need not wait. -/
def performed (outcome : Except JsError ProviderResult) (c : Call) (s : World × List Deed) :
    Except JsError (Reply c) × (World × List Deed) :=
  match s.1.answer toString 0 { outcome := outcome } c with
  | some (r, w) => (r, (w, ⟨⟨c, r⟩, true⟩ :: s.2))
  | none => (.error SqlError.lockWaitTimeout,
      (s.1, ⟨⟨c, .error SqlError.lockWaitTimeout⟩, false⟩ :: s.2))

/-- The delivery of `sampleMessage`, when the provider answers like this. -/
def attempted (outcome : Except JsError ProviderResult) :
    Except JsError ProcessResult × (World × List Deed) :=
  (DeliveryProcessorService.processDelivery interfaceRepository ⟨"SMSProvider"⟩ sampleMessage).run
    (performed outcome) (sampleWorld, [])

theorem leads_attempted (outcome : Except JsError ProviderResult) :
    Leads (audited toString 0)
      (DeliveryProcessorService.processDelivery interfaceRepository ⟨"SMSProvider"⟩ sampleMessage)
      (sampleWorld, []) (.done (attempted outcome).1) (attempted outcome).2 := by
  refine leads_run (fun c s => ?_) _ _
  unfold performed
  cases h : s.1.answer toString 0 { outcome := outcome } c with
  | some out => exact ⟨true, .answered (World.up_of_answer h), rfl⟩
  | none => exact ⟨false, .lost _ (World.external_of_waits h).1, rfl⟩

/-- The provider declines, and the message is recorded as sent. -/
theorem processDelivery_truthful_fails : ¬ ∀ provider m w o w' t,
    Leads (audited toString 0)
      (DeliveryProcessorService.processDelivery interfaceRepository provider m) (w, [])
      (.done o) (w', t) → Truthful m w w' t := by
  intro truthful
  have h := (truthful _ _ _ _ _ _ (leads_attempted (.ok ⟨false, some "{}"⟩))).sent rfl
  cases h

/-- The provider rejects, and the attempt is recorded as failed. -/
theorem processDelivery_truthful_rejected :
    Truthful sampleMessage sampleWorld (attempted (.error { message := "busy" })).2.1
      (attempted (.error { message := "busy" })).2.2 :=
  (processDelivery_truthful_iff (leads_attempted (.error { message := "busy" }))).mpr
    ⟨fun h => (by cases h), .inr ⟨rfl, fun h => (by cases h)⟩⟩

end Auditing

end Notification
