import Notification.Aggregator.DeliveryCalls
import Notification.Aggregator.Schema
import Notification.Aggregator.Terminal
import Notification.Interaction.Series

/-!
# FAILED rows and the dead-letter queue

A message that has used up its attempts is set to `FAILED`, then written to `dlq_entries`, then
published on `dlq.{channel}`: three writes without a transaction around them. They agree in
every run in which none of the last two fails after the first, and in which the row of a
message that is `FAILED` already is left alone.
-/

namespace Notification

open Interaction Program

namespace DeadLetters

open Delivering (Delivery dlqTopic dlqTopic_append)

/-- How many entries the DLQ has for a message. -/
def entriesFor (messageId : String) (w : World) : ℕ :=
  w.db.dlqEntries.countP fun entry => entry.messageId == messageId

/-- How many events have been published for it on `dlq.{channel}`. -/
def eventsFor (messageId channel : String) (w : World) : ℕ :=
  w.log.countP fun record => record.topic == "dlq." ++ channel &&
    (record.value.get? "messageId").bind Json.string? == some messageId

/-- `FAILED` and the dead-letter queue agree. -/
def Agrees (w : World) : Prop :=
  ∀ r ∈ w.db.messages, r.status = .failed ↔
    entriesFor r.messageId w = 1 ∧ eventsFor r.messageId r.channel w = 1

/-- There is one entry and one event for a `FAILED` row and none for any other. -/
def Settled (w : World) : Prop :=
  ∀ r ∈ w.db.messages, entriesFor r.messageId w = eventsFor r.messageId r.channel w ∧
    entriesFor r.messageId w = if r.status = .failed then 1 else 0

/-- The row of the message is `FAILED`. -/
def Dead (m : MessageToDeliver) (w : World) : Prop :=
  ∃ r ∈ w.db.messages, r.messageId = m.messageId ∧ r.status = .failed

/-- In its last attempt the message has the channel of its row. -/
def OnItsChannel (m : MessageToDeliver) (w : World) : Prop :=
  DeliveryProcessorService.MAX_ATTEMPTS ≤ m.attempt + 1 →
    ∀ r ∈ w.db.messages, r.messageId = m.messageId → r.channel = m.channel

/-- A row that is `FAILED` when the execution begins is not updated again. For another message
an update to `FAILED` that throws has not been carried out, saving the DLQ entry does not throw,
and the DLQ event is published. -/
def Buries (m : MessageToDeliver) (w : World) : Env Reply JsError World
  | v, ⟨.repository (.updateStatus _ status _ _), .error _⟩, v' =>
    Dead m w ∨ status = .failed → v' = v
  | _, ⟨.repository (.updateStatus ..), .ok _⟩, _ => ¬ Dead m w
  | _, ⟨.repository (.saveDLQEntry _), .error _⟩, _ => Dead m w
  | v, ⟨.produce topic _ _ _, .error _⟩, v' => dlqTopic topic = true → v' = v → Dead m w
  | _, _, _ => True

/-- Deliveries one after another, in a world in which every call may fail, with or without
having had its effect. -/
def inTurn (uuid : ℕ → String) (admits : Delivery → World → Prop)
    (permits : Delivery → World → Env Reply JsError World) :
    Series Reply JsError World fun _ : Delivery => ProcessResult where
  program d := DeliveryProcessorService.processDelivery interfaceRepository d.provider d.message
  env := World.lossy uuid 0
  starts := Settled
  drifts := World.later
  admits _ := admits
  permits _ := permits

theorem Settled.agrees {w : World} (h : Settled w) : Agrees w := by
  intro r hr
  obtain ⟨hsame, hcount⟩ := h r hr
  rw [← hsame, hcount]
  split
  · next hfailed => exact iff_of_true hfailed ⟨rfl, rfl⟩
  · next hfailed => exact iff_of_false hfailed fun h => absurd h.1 (by decide)

/-! ## What single calls do -/

section Calls

variable {uuid : ℕ → String} {m : MessageToDeliver} {w v v' : World} {messageId channel : String}

theorem entriesFor_append (entry : DLQEntry) (v : World) :
    entriesFor messageId { v with db := { v.db with dlqEntries := v.db.dlqEntries ++ [entry] } } =
      entriesFor messageId v + if entry.messageId = messageId then 1 else 0 := by
  simp [entriesFor, List.countP_append, List.countP_cons]

theorem eventsFor_append (record : Record) (v : World) :
    eventsFor messageId channel { v with log := v.log ++ [record] } =
      eventsFor messageId channel v +
        if record.topic = "dlq." ++ channel ∧
          (record.value.get? "messageId").bind Json.string? = some messageId then 1 else 0 := by
  simp [eventsFor, List.countP_append, List.countP_cons]

/-- Other topics do not count. -/
theorem eventsFor_append_other {record : Record} (other : dlqTopic record.topic = false)
    (v : World) :
    eventsFor messageId channel { v with log := v.log ++ [record] } =
      eventsFor messageId channel v := by
  have htopic : record.topic ≠ "dlq." ++ channel := by
    intro h
    rw [h, dlqTopic_append] at other
    cases other
  rw [eventsFor_append, if_neg fun h => htopic h.1]
  rfl

/-- The rows after an update, with what matters of them. -/
theorem mem_updateStatus {db : Database} {status : Status} {finalDelivered : Bool} {attempts : Int}
    {r : MessageRow} (h : r ∈ (db.updateStatus messageId status finalDelivered attempts).messages) :
    ∃ old ∈ db.messages, r.messageId = old.messageId ∧ r.channel = old.channel ∧
      r.status = if old.messageId = messageId then status else old.status := by
  obtain ⟨old, hold, rfl⟩ := List.mem_map.mp h
  refine ⟨old, hold, ?_⟩
  split <;> exact ⟨rfl, rfl, rfl⟩

theorem Settled.congr (h : Settled v) (messages : v'.db.messages = v.db.messages)
    (entries : v'.db.dlqEntries = v.db.dlqEntries)
    (events : ∀ messageId channel, eventsFor messageId channel v' = eventsFor messageId channel v) :
    Settled v' := by
  intro r hr
  rw [messages] at hr
  obtain ⟨hsame, hcount⟩ := h r hr
  have hentries : entriesFor r.messageId v' = entriesFor r.messageId v := by
    rw [entriesFor, entries, entriesFor]
  rw [hentries, events]
  exact ⟨hsame, hcount⟩

/-- A row that is not `FAILED` gets another status. -/
theorem Settled.updateStatus (h : Settled v) {status : Status} (hstatus : status ≠ .failed)
    (alive : ∀ r ∈ v.db.messages, r.messageId = messageId → r.status ≠ .failed)
    (finalDelivered : Bool) (attempts : Int) :
    Settled { v with db := v.db.updateStatus messageId status finalDelivered attempts } := by
  intro r hr
  obtain ⟨old, hold, hid, hchannel, hnew⟩ := mem_updateStatus hr
  obtain ⟨hsame, hcount⟩ := h old hold
  rw [hid, hchannel, hnew]
  refine ⟨hsame, ?_⟩
  by_cases hown : old.messageId = messageId
  · rw [if_neg (alive old hold hown)] at hcount
    rw [if_pos hown, if_neg hstatus]
    exact hcount
  · rw [if_neg hown]
    exact hcount

/-- Before the DLQ is written to, in an execution that has begun in `w`. -/
structure Sound (m : MessageToDeliver) (w v : World) : Prop where
  settled : Settled v
  channel : OnItsChannel m v
  alive : ¬ Dead m w → ∀ r ∈ v.db.messages, r.messageId = m.messageId → r.status ≠ .failed

theorem Sound.start (settled : Settled w) (channel : OnItsChannel m w) : Sound m w w :=
  ⟨settled, channel, fun alive r hr hid hfailed => alive ⟨r, hr, hid, hfailed⟩⟩

theorem Sound.congr (h : Sound m w v) (messages : v'.db.messages = v.db.messages)
    (entries : v'.db.dlqEntries = v.db.dlqEntries)
    (events : ∀ messageId channel, eventsFor messageId channel v' = eventsFor messageId channel v) :
    Sound m w v' :=
  ⟨h.settled.congr messages entries events, by rw [OnItsChannel, messages]; exact h.channel,
    by rw [messages]; exact h.alive⟩

/-- A call that neither sets a row to `FAILED` nor writes to the DLQ. -/
def Harmless (m : MessageToDeliver) : Call → Prop
  | .repository (.updateStatus messageId status _ _) => messageId = m.messageId ∧ status ≠ .failed
  | .repository (.getStatus _) => True
  | .repository (.saveAttempt _) => True
  | .redis _ => True
  | .send .. => True
  | .stringify _ => True
  | .now => True
  | .produce topic _ _ _ => dlqTopic topic = false
  | _ => False

theorem Sound.harmless {ev : CallEvent} (h : Sound m w v) (answer : v.lossy uuid 0 ev v')
    (buries : Buries m w v ev v') (harmless : Harmless m ev.call) : Sound m w v' := by
  obtain ⟨call, r⟩ := ev
  cases call with
  | repository c =>
      cases c with
      | updateStatus messageId status finalDelivered attempts =>
          obtain rfl | ⟨rfl, -⟩ := World.lossy_updateStatus answer
          · obtain ⟨rfl, hstatus⟩ := harmless
            by_cases dead : Dead m w
            · cases r with
              | ok _ => exact absurd dead buries
              | error e => exact (buries (.inl dead)).symm ▸ h
            have alive := h.alive dead
            refine ⟨h.settled.updateStatus hstatus alive _ _, fun hlast r hr hid => ?_,
              fun _ r hr hid => ?_⟩
            · obtain ⟨old, hold, hid', hchannel, -⟩ := mem_updateStatus hr
              rw [hchannel]
              exact h.channel hlast old hold (hid' ▸ hid)
            · obtain ⟨old, hold, hid', -, hnew⟩ := mem_updateStatus hr
              rw [hnew, if_pos (hid'.symm.trans hid)]
              exact hstatus
          · exact h
      | saveDLQEntry entity => exact harmless.elim
      | _ =>
          obtain ⟨r', answer, -⟩ := World.effect_of_lossy answer
          obtain ⟨db, hanswer, rfl⟩ | ⟨rfl, -⟩ := World.faulty_repository answer
          · cases hanswer
            exact h.congr rfl rfl fun _ _ => rfl
          · exact h
  | redis c =>
      obtain rfl | ⟨rfl, -⟩ := World.lossy_redis answer
      · exact h.congr rfl rfl fun _ _ => rfl
      · exact h
  | send provider recipient body options message =>
      obtain rfl := World.faulty_send (World.faulty_of_lossy rfl answer)
      exact h.congr rfl rfl fun _ _ => rfl
  | stringify response =>
      obtain rfl := World.lossy_stringify answer
      exact h
  | now =>
      obtain ⟨rfl, -⟩ := World.faulty_now (World.faulty_of_lossy rfl answer)
      exact h
  | produce topic key value headers =>
      obtain ⟨partition, rfl⟩ | ⟨rfl, -⟩ := World.lossy_produce answer
      · have other : dlqTopic topic = false := harmless
        exact h.congr rfl rfl fun _ _ => eventsFor_append_other other v
      · exact h
  | _ => exact harmless.elim

/-- After the row of `m` has been set to `FAILED`, with so many entries and events for it. -/
structure Burying (m : MessageToDeliver) (entries events : ℕ) (v : World) : Prop where
  own : ∀ r ∈ v.db.messages, r.messageId = m.messageId → r.status = .failed ∧
    r.channel = m.channel ∧ entriesFor m.messageId v = entries ∧
    eventsFor m.messageId m.channel v = events
  others : ∀ r ∈ v.db.messages, r.messageId ≠ m.messageId →
    entriesFor r.messageId v = eventsFor r.messageId r.channel v ∧
    entriesFor r.messageId v = if r.status = .failed then 1 else 0

theorem Sound.bury (h : Sound m w v) (alive : ¬ Dead m w)
    (last : DeliveryProcessorService.MAX_ATTEMPTS ≤ m.attempt + 1) (attempts : Int) :
    Burying m 0 0 { v with db := v.db.updateStatus m.messageId .failed false attempts } := by
  constructor
  · intro r hr hown
    obtain ⟨old, hold, hid, hchannel, hnew⟩ := mem_updateStatus hr
    obtain ⟨hsame, hcount⟩ := h.settled old hold
    have hown : old.messageId = m.messageId := hid.symm.trans hown
    rw [if_neg (h.alive alive old hold hown)] at hcount
    have holdChannel := h.channel last old hold hown
    rw [hown] at hcount
    rw [hown, holdChannel] at hsame
    exact ⟨by rw [hnew, if_pos hown], hchannel.trans holdChannel, hcount, hsame.symm.trans hcount⟩
  · intro r hr hother
    obtain ⟨old, hold, hid, hchannel, hnew⟩ := mem_updateStatus hr
    have hnew : r.status = old.status := hnew.trans (if_neg fun h => hother (hid.trans h))
    rw [hid, hchannel, hnew]
    exact h.settled old hold

theorem Burying.saved {entries events : ℕ} (h : Burying m entries events v) (entry : DLQEntry)
    (hentry : entry.messageId = m.messageId) : Burying m (entries + 1) events
      { v with db := { v.db with dlqEntries := v.db.dlqEntries ++ [entry] } } := by
  constructor
  · intro r hr hown
    obtain ⟨hstatus, hchannel, hentries, hevents⟩ := h.own r hr hown
    exact ⟨hstatus, hchannel, by rw [entriesFor_append, if_pos hentry, hentries], hevents⟩
  · intro r hr hother
    rw [entriesFor_append, if_neg fun hsame => hother (hsame.symm.trans hentry)]
    exact h.others r hr hother

theorem Burying.published {entries events : ℕ} (h : Burying m entries events v) (record : Record)
    (htopic : record.topic = "dlq." ++ m.channel)
    (hrecord : (record.value.get? "messageId").bind Json.string? = some m.messageId) :
    Burying m entries (events + 1) { v with log := v.log ++ [record] } := by
  constructor
  · intro r hr hown
    obtain ⟨hstatus, hchannel, hentries, hevents⟩ := h.own r hr hown
    exact ⟨hstatus, hchannel, hentries, by rw [eventsFor_append, if_pos ⟨htopic, hrecord⟩, hevents]⟩
  · intro r hr hother
    have hid : (record.value.get? "messageId").bind Json.string? ≠ some r.messageId :=
      fun hsame => hother (Option.some.inj (hsame.symm.trans hrecord))
    rw [eventsFor_append, if_neg fun hsame => hid hsame.2]
    exact h.others r hr hother

theorem Burying.settled (h : Burying m 1 1 v) : Settled v := by
  intro r hr
  by_cases hown : r.messageId = m.messageId
  · obtain ⟨hstatus, hchannel, hentries, hevents⟩ := h.own r hr hown
    rw [hown, hchannel, hentries, hevents, if_pos hstatus]
    exact ⟨rfl, rfl⟩
  · exact h.others r hr hown

end Calls

/-! ## One execution -/

section Executions

variable {uuid : ℕ → String} {m : MessageToDeliver} {n : Int} {w : World} {provider : IProvider}
  {s : World × Trace Reply JsError}

theorem harmless_of_try {c : Call} (h : DeliveryProcessorService.TryCall m n c) : Harmless m c := by
  cases h with
  | markSent => exact ⟨rfl, by decide⟩
  | publishLog key text => exact (by decide : dlqTopic "logs" = false)
  | _ => trivial

theorem harmless_of_retry {c : Call} (h : DeliveryProcessorService.RetryCall m n c) :
    Harmless m c := by
  cases h with
  | markPending => exact ⟨rfl, by decide⟩
  | publishLog key text error => exact (by decide : dlqTopic "logs" = false)
  | _ => trivial

/-- A part of the execution that does not write to the DLQ. -/
theorem wp_harmless {α : Type} {p : Prog α} (h : p.Makes fun ev => Harmless m ev.call)
    (sound : Sound m w s.1) :
    p.wp (traced (World.lossy uuid 0) (Buries m w)) (fun _ => True)
      (fun _ s' => Sound m w s'.1) s :=
  mono_wp (h.keeps (I := fun s => Sound m w s.1)
    (fun _ _ _ answer harmless kept => kept.harmless answer.1 answer.2.2 harmless) sound)
    (fun _ _ => trivial) fun _ _ h => h

/-- A log record changes nothing. -/
theorem wp_log {topic : String} {key : Option Json} {value : Json}
    {headers : List (String × String)} (other : dlqTopic topic = false) (settled : Settled s.1) :
    (produce topic key value headers).wp (traced (World.lossy uuid 0) (Buries m w))
      (fun _ => True) (fun _ s' => Settled s'.1) s := by
  obtain ⟨v, t⟩ := s
  refine wp_perform_traced.mpr fun r v' answer _ => ⟨trivial, ?_⟩
  obtain ⟨partition, rfl⟩ | ⟨rfl, -⟩ := World.lossy_produce answer
  · exact settled.congr rfl rfl fun _ _ => eventsFor_append_other other v
  · exact settled

theorem wp_handleMaxAttemptsReached (sound : Sound m w s.1)
    (last : DeliveryProcessorService.MAX_ATTEMPTS ≤ m.attempt + 1) (errorMsg : String) :
    (DeliveryProcessorService.handleMaxAttemptsReached interfaceRepository m n errorMsg).wp
      (traced (World.lossy uuid 0) (Buries m w)) (fun _ => True)
      (fun _ s' => Settled s'.1) s := by
  obtain ⟨v, t⟩ := s
  rw [DeliveryProcessorService.handleMaxAttemptsReached, wp_bind]
  refine wp_perform_traced.mpr fun r v₁ answer buries => ⟨trivial, ?_⟩
  cases r with
  | error e =>
      obtain rfl : v₁ = v := buries (.inr rfl)
      exact sound.settled
  | ok _ =>
      have alive : ¬ Dead m w := buries
      obtain rfl | ⟨-, e, he⟩ := World.lossy_updateStatus answer
      swap
      · cases he
      have burying := sound.bury alive last n
      rw [either_ok, wp_bind]
      refine wp_perform_traced.mpr fun r v₂ answer buries => ⟨trivial, ?_⟩
      cases r with
      | error e => exact absurd buries alive
      | ok _ =>
          obtain ⟨choice, hanswer⟩ := World.up_of_lossy_ok answer
          cases hanswer
          have burying := burying.saved
            { messageId := m.messageId, channel := m.channel, failureReason := errorMsg,
              maxAttemptsReached := true } rfl
          rw [either_ok, wp_bind]
          refine wp_perform_traced.mpr fun r v₃ answer buries => ⟨trivial, ?_⟩
          obtain ⟨partition, rfl⟩ | ⟨rfl, e, rfl⟩ := World.lossy_produce answer
          · have settled := (burying.published ⟨"dlq." ++ m.channel, partition,
              some (.string m.messageId), .ofFields
                [ ("messageId", some (.string m.messageId)), ("channel", some (.string m.channel)),
                  ("reason", some (.string errorMsg)) ], []⟩ rfl rfl).settled
            cases r with
            | error e => exact settled
            | ok _ =>
                rw [either_ok, wp_bind]
                apply mono_post (wp_log (by decide) settled)
                intro o s settled
                cases o with
                | error e => exact settled
                | ok _ =>
                    rw [either_ok, wp_bind]
                    apply mono_post (wp_log (by decide) settled)
                    intro o s settled
                    cases o with
                    | error e => exact settled
                    | ok _ => exact settled
          · exact absurd (buries (dlqTopic_append _) rfl) alive

theorem wp_processDelivery (settled : Settled w) (channel : OnItsChannel m w) :
    (DeliveryProcessorService.processDelivery interfaceRepository provider m).wp
      (traced (World.lossy uuid 0) (Buries m w)) (fun _ => True)
      (fun _ s => Settled s.1) (w, []) := by
  have sound : Sound m w w := .start settled channel
  rw [DeliveryProcessorService.processDelivery, wp_tryCatch]
  apply mono_post (wp_harmless ((DeliveryProcessorService.calls_deliver m _ provider).mono
    fun _ => harmless_of_try) sound)
  intro o s sound
  cases o with
  | ok _ => exact sound.settled
  | error error =>
      rw [either_error, DeliveryProcessorService.handleFailure, wp_bind]
      refine mono_post (wp_harmless (makes_perform.mpr fun _ => trivial) sound) fun o s sound => ?_
      cases o with
      | error e => exact sound.settled
      | ok _ =>
          rw [either_ok, wp_ite]
          exact ⟨fun last => wp_handleMaxAttemptsReached sound last _, fun _ =>
            mono_post (wp_harmless ((DeliveryProcessorService.calls_handleRetry m _ _).mono
              fun _ => harmless_of_retry) sound) fun _ _ sound => sound.settled⟩

/-- In a run in which no execution updates a `FAILED` row or fails to write to the DLQ, the
two agree between executions. -/
theorem failed_agrees {xs : List (Turn Reply JsError World fun _ : Delivery => ProcessResult)}
    (run : (inTurn uuid (fun d => OnItsChannel d.message) (fun d => Buries d.message)).Runs xs w) :
    Agrees w := by
  refine Settled.agrees (run.invariant (I := fun _ => Settled) (fun _ h => h) ?_ ?_)
  · rintro xs v v' ⟨time, -, rfl⟩ settled
    exact settled.congr rfl rfl fun _ _ => rfl
  · exact fun xs d v _ channel settled => wp_processDelivery settled channel

end Executions

/-! ## A DLQ entry that cannot be saved -/

section Unsaved

/-- The last attempt of `sampleMessage`. -/
def lastDelivery : Delivery := ⟨⟨"SMSProvider"⟩, { sampleMessage with attempt := 3 }⟩

/-- The provider rejects, and the calls in `broken` throw. -/
def rejecting (broken : Call → Bool) : (c : Call) → World → Except JsError (Reply c) × World :=
  World.brokenHandler broken toString fun _ => { outcome := .error { message := "busy" } }

def isSaveDLQEntry : Call → Bool
  | .repository (.saveDLQEntry _) => true
  | _ => false

theorem settled_sampleWorld : Settled sampleWorld := by
  intro r hr
  cases hr with
  | head => exact ⟨rfl, rfl⟩
  | tail _ h => cases h

/-- The row is `FAILED`, and the DLQ has no entry for it. -/
theorem failed_agrees_fails :
    ¬ ∀ xs w, (inTurn toString (fun _ _ => True) fun _ _ _ _ _ => True).Runs xs w →
      Agrees w := by
  intro agree
  have run : (inTurn toString (fun _ _ => True) fun _ _ _ _ _ => True).Runs [] sampleWorld :=
    .start settled_sampleWorld
  have buried := run.executed (j := lastDelivery) trivial
    (fun c w => .inl (World.faulty_brokenHandler isSaveDLQEntry toString
      (fun _ => { outcome := .error { message := "busy" } }) c w)) fun _ _ => trivial
  have h := (agree _ _ buried _ List.mem_cons_self).mp rfl
  cases h.1

/-- The world after the last attempt, when all calls but the provider's work. -/
def buriedWorld : World :=
  ((DeliveryProcessorService.processDelivery interfaceRepository lastDelivery.provider
    lastDelivery.message).run (recorded (rejecting fun _ => false)) (sampleWorld, [])).2.1

theorem buries_rejecting (c : Call) (w : World) : Buries lastDelivery.message sampleWorld w
    ⟨c, (rejecting (fun _ => false) c w).1⟩ (rejecting (fun _ => false) c w).2 := by
  have alive : ¬ Dead lastDelivery.message sampleWorld := by
    rintro ⟨r, hr, -, hfailed⟩
    cases hr with
    | head => cases hfailed
    | tail _ h => cases h
  cases c with
  | repository c =>
      cases c with
      | updateStatus messageId status finalDelivered attempts =>
          have answer := World.faulty_brokenHandler (fun _ => false) toString
            (fun _ => { outcome := .error { message := "busy" } })
            (.repository (.updateStatus messageId status finalDelivered attempts)) w
          obtain ⟨hok, -⟩ | ⟨hsame, e, herror⟩ := World.faulty_updateStatus answer
          · rw [rejecting, hok]
            exact alive
          · rw [rejecting, herror]
            exact fun _ => hsame
      | _ => trivial
  | _ => trivial

/-- The row is `FAILED`, and the DLQ has one entry and one event for it. -/
theorem failed_agrees_buried : Agrees buriedWorld := by
  have run : (inTurn toString (fun d => OnItsChannel d.message) fun d => Buries d.message).Runs []
      sampleWorld := .start settled_sampleWorld
  have admitted : OnItsChannel lastDelivery.message sampleWorld := by
    intro _ r hr _
    cases hr with
    | head => rfl
    | tail _ h => cases h
  exact failed_agrees (run.executed (j := lastDelivery) admitted
    (fun c w => .inl (World.faulty_brokenHandler (fun _ => false) toString
      (fun _ => { outcome := .error { message := "busy" } }) c w)) buries_rejecting)

end Unsaved

end DeadLetters

end Notification
