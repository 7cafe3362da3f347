import Notification.Aggregator.Authority
import Notification.Aggregator.DeliveryCalls
import Notification.Aggregator.Terminal
import Notification.Interaction.Series

/-!
# Soundness of the delivered cache

The key `delivered:{d}` should only be in Redis when a row with dedup key `d` is finally
delivered. The check before a delivery sets it already, and a failed delivery leaves it there
and may take `finalDelivered` back. So the cache is sound only as long as a message is
processed when it has been delivered before, and its row stays as it is.
-/

namespace Notification

open Interaction Program

namespace DeliveredCache

open Delivering (Delivery)
open DeliveryDeduplicationService (buildDeliveryKey)

/-- A committed row with this dedup key is finally delivered. -/
def Delivered (d : String) (w : World) : Prop :=
  ∃ r ∈ w.db.messages, r.dedupKey = d ∧ r.finalDelivered = true

/-- Redis has the delivery key of `d`. -/
def Marked (d : String) (w : World) : Prop := (w.redis.live (buildDeliveryKey d)).isSome = true

/-- Every key in the cache stands for a delivered row. -/
def CacheSound (w : World) : Prop := ∀ d, Marked d w → Delivered d w

/-- Of the rows with some dedup key that is marked, or is the message's, only that of the
message is delivered. -/
def Carries (m : MessageToDeliver) (w : World) : Prop :=
  ∃ d, (Marked d w ∨ d = m.dedupKey) ∧ Delivered d w ∧
    ∀ r ∈ w.db.messages, r.dedupKey = d → r.finalDelivered = true → r.messageId = m.messageId

/-- Takes `finalDelivered` back. -/
def takesBack : Call → Bool
  | .repository (.updateStatus _ _ false _) => true
  | _ => false

/-- Every call but those of Redis may fail, with or without having had its effect. -/
def redisUp (uuid : ℕ → String) : Env Reply JsError World := fun w ev w' =>
  w.lossy uuid 0 ev w' ∧ ∀ c, ev.call = .redis c → ∃ a, ev.answer = .ok a

/-- Deliveries one after another from an empty Redis. -/
def inTurn (uuid : ℕ → String) (admits : Delivery → World → Prop)
    (permits : Delivery → World → Env Reply JsError World) :
    Series Reply JsError World fun _ : Delivery => ProcessResult where
  program d := DeliveryProcessorService.processDelivery interfaceRepository d.provider d.message
  env := redisUp uuid
  starts w := ∀ key, w.redis.strings key = none
  drifts := World.later
  admits _ := admits
  permits _ := permits

/-- The message's dedup key has been delivered before. -/
def Repeats (d : Delivery) (w : World) : Prop := Delivered d.message.dedupKey w

/-- Where the cache needs the message's row, nothing that takes it back is carried out. -/
def Retains (d : Delivery) (w : World) : Env Reply JsError World := fun v ev v' =>
  Carries d.message w → takesBack ev.call = true → v' = v

theorem buildDeliveryKey_inj {d d' : String} (h : buildDeliveryKey d = buildDeliveryKey d') :
    d = d' := by
  simpa [buildDeliveryKey] using h

/-! ## What single calls do -/

section Calls

variable {uuid : ℕ → String} {m : MessageToDeliver} {n : Int} {w v v' : World} {d : String}

/-- In the middle of an execution for `m` that has begun in `w`. -/
structure Kept (m : MessageToDeliver) (w v : World) : Prop where
  marked : ∀ d, Marked d v → Marked d w ∨ d = m.dedupKey
  others : ∀ r ∈ w.db.messages, r.messageId ≠ m.messageId → r ∈ v.db.messages
  own : Carries m w → ∀ r ∈ w.db.messages, r.messageId = m.messageId → r.finalDelivered = true →
    ∃ r' ∈ v.db.messages, r'.messageId = m.messageId ∧ r'.dedupKey = r.dedupKey ∧
      r'.finalDelivered = true

theorem Kept.start : Kept m w w :=
  ⟨fun _ h => .inl h, fun _ h _ => h, fun _ r hr hid hfinal => ⟨r, hr, hid, rfl, hfinal⟩⟩

theorem Kept.cacheSound (h : Kept m w v) (sound : CacheSound w)
    (delivered : Delivered m.dedupKey w) :
    CacheSound v := by
  intro d hmarked
  have hbefore := h.marked d hmarked
  have hdelivered : Delivered d w := hbefore.elim (sound d) fun heq => heq ▸ delivered
  by_cases hother : ∃ r ∈ w.db.messages, r.dedupKey = d ∧ r.finalDelivered = true ∧
      r.messageId ≠ m.messageId
  · obtain ⟨r, hr, hd, hfinal, hid⟩ := hother
    exact ⟨r, h.others r hr hid, hd, hfinal⟩
  · -- only the message's own row is delivered, so it is not taken back
    have honly : ∀ r ∈ w.db.messages, r.dedupKey = d → r.finalDelivered = true →
        r.messageId = m.messageId := fun r hr hd hfinal => by
      by_contra hid
      exact hother ⟨r, hr, hd, hfinal, hid⟩
    obtain ⟨r, hr, hd, hfinal⟩ := hdelivered
    obtain ⟨r', hr', -, hd', hfinal'⟩ :=
      h.own ⟨d, hbefore, ⟨r, hr, hd, hfinal⟩, honly⟩ r hr (honly r hr hd hfinal) hfinal
    exact ⟨r', hr', hd'.trans hd, hfinal'⟩

theorem Kept.congr (h : Kept m w v) (messages : v'.db.messages = v.db.messages)
    (marked : ∀ d, Marked d v' → Marked d v ∨ d = m.dedupKey) : Kept m w v' := by
  refine ⟨fun d hd => (marked d hd).elim (h.marked d) .inr, ?_, ?_⟩
  · rw [messages]
    exact h.others
  · rw [messages]
    exact h.own

/-- A call of an execution for `m`. -/
def Own (m : MessageToDeliver) : Call → Prop
  | .repository (.updateStatus messageId _ _ _) => messageId = m.messageId
  | .redis (.setNX key _) => key = buildDeliveryKey m.dedupKey
  | .redis (.setEx key _ _) => key = buildDeliveryKey m.dedupKey
  | .sql _ => False
  | .uuidv4 => False
  | .heartbeat => False
  | .resolveOffset _ => False
  | _ => True

theorem marked_set {value : Json} {expiresAt : Option Int}
    (h : Marked d { v with redis := v.redis.set (buildDeliveryKey m.dedupKey) value expiresAt }) :
    Marked d v ∨ d = m.dedupKey := by
  by_cases heq : d = m.dedupKey
  · exact .inr heq
  · refine .inl ?_
    rw [Marked, Redis.live_set_ne _ fun hkey => heq (buildDeliveryKey_inj hkey)] at h
    exact h

/-- An update of the message's row that leaves it delivered if it has to be. -/
theorem Kept.update (h : Kept m w v) {status : Status} {finalDelivered : Bool} {attempts : Int}
    (stays : Carries m w → finalDelivered = true) :
    Kept m w { v with db := v.db.updateStatus m.messageId status finalDelivered attempts } := by
  refine ⟨h.marked, fun r hr hid => ?_, fun carries r hr hid hfinal => ?_⟩
  · exact List.mem_map.mpr ⟨r, h.others r hr hid, if_neg hid⟩
  · obtain ⟨r', hr', hid', hd', -⟩ := h.own carries r hr hid hfinal
    exact ⟨_, List.mem_map_of_mem hr', by rw [if_pos hid']; exact hid',
      by rw [if_pos hid']; exact hd', by rw [if_pos hid']; exact stays carries⟩

/-- What a Redis call marks. -/
theorem Kept.redis (h : Kept m w v) {c : RedisCall} (own : Own m (.redis c)) :
    Kept m w { v with redis := (v.redis.answer c).2 } := by
  refine h.congr rfl fun d hd => ?_
  cases c with
  | setNX key value =>
      obtain rfl : key = buildDeliveryKey m.dedupKey := own
      rw [Redis.answer] at hd
      split at hd
      · exact .inl hd
      · exact marked_set hd
  | setEx key seconds value =>
      obtain rfl : key = buildDeliveryKey m.dedupKey := own
      exact marked_set hd
  | _ => exact .inl hd

theorem Kept.step {ev : CallEvent} (h : Kept m w v) (answer : redisUp uuid v ev v')
    (own : Own m ev.call) (retains : Carries m w → takesBack ev.call = true → v' = v) :
    Kept m w v' := by
  obtain ⟨call, r⟩ := ev
  obtain ⟨answer, up⟩ := answer
  cases call with
  | sql c => exact own.elim
  | repository c =>
      cases c with
      | updateStatus messageId status finalDelivered attempts =>
          obtain rfl : messageId = m.messageId := own
          obtain rfl | ⟨rfl, -⟩ := World.lossy_updateStatus answer
          · cases finalDelivered with
            | true => exact h.update fun _ => rfl
            | false =>
                by_cases carries : Carries m w
                · exact (retains carries rfl).symm ▸ h
                · exact h.update fun h => absurd h carries
          · exact h
      | _ =>
          obtain ⟨r', answer, -⟩ := World.effect_of_lossy answer
          obtain ⟨db, hanswer, rfl⟩ | ⟨rfl, -⟩ := World.faulty_repository answer
          · cases hanswer
            exact h.congr rfl fun _ => .inl
          · exact h
  | redis c =>
      obtain rfl | ⟨-, e, rfl⟩ := World.lossy_redis answer
      · exact h.redis own
      · obtain ⟨a, ha⟩ := up c rfl
        cases ha
  | produce topic key value headers =>
      obtain ⟨partition, rfl⟩ | ⟨rfl, -⟩ := World.lossy_produce answer
      · exact h.congr rfl fun _ => .inl
      · exact h
  | send provider recipient body options message =>
      obtain rfl := World.faulty_send (World.faulty_of_lossy rfl answer)
      exact h.congr rfl fun _ => .inl
  | stringify response =>
      obtain rfl := World.lossy_stringify answer
      exact h
  | now =>
      obtain ⟨rfl, -⟩ := World.faulty_now (World.faulty_of_lossy rfl answer)
      exact h
  | _ => exact own.elim

theorem own_processDelivery {provider : IProvider} :
    (DeliveryProcessorService.processDelivery interfaceRepository provider m).Makes
      fun ev => Own m ev.call := by
  refine Makes.tryCatch ((DeliveryProcessorService.calls_deliver m _ provider).mono fun ev h => ?_)
    fun error => Makes.bind (makes_perform.mpr fun _ => trivial) fun _ => Makes.ite ?_ ?_
  · obtain ⟨call, r⟩ := ev
    cases h <;> trivial
  · apply (DeliveryProcessorService.calls_handleMaxAttemptsReached m _ _).mono
    intro ev h
    obtain ⟨call, r⟩ := ev
    cases h <;> trivial
  · apply (DeliveryProcessorService.calls_handleRetry m _ _).mono
    intro ev h
    obtain ⟨call, r⟩ := ev
    cases h <;> trivial

end Calls

/-- In a run in which every message has been delivered before, and its row stays delivered
where the cache needs it, the cache is sound all the time. -/
theorem cache_sound {uuid : ℕ → String} {w : World}
    (reached : (inTurn uuid Repeats Retains).Reaches w) :
    CacheSound w := by
  refine reached.invariant ?_ ?_ ?_
  · intro w empty d marked
    rw [Marked, Redis.live, empty] at marked
    cases marked
  · rintro w w' ⟨time, later, rfl⟩ sound d marked
    obtain ⟨entry, hentry⟩ := Option.isSome_iff_exists.mp marked
    exact sound d (Option.isSome_iff_exists.mpr ⟨entry, w.redis.live_of_later later hentry⟩)
  · intro xs d w _ delivered sound
    refine mono_wp ((own_processDelivery.keeps (I := fun s => Kept d.message w s.1)
      (fun s ev s' answer own kept => ?_) .start))
      (fun s kept => kept.cacheSound sound delivered) fun _ s kept =>
        kept.cacheSound sound delivered
    have up : redisUp uuid s.1 ev s'.1 := answer.1
    exact kept.step up own answer.2.2

/-! ## A delivery that fails after the key has been set -/

/-- A handler whose Redis is up. -/
theorem redisUp_brokenHandler (broken : Call → Bool) (sound : ∀ c, broken (.redis c) = false)
    (uuid : ℕ → String) (choose : World → Choice) (c : Call) (w : World) :
    redisUp uuid w ⟨c, (World.brokenHandler broken uuid choose c w).1⟩
      (World.brokenHandler broken uuid choose c w).2 := by
  refine ⟨.inl (World.faulty_brokenHandler broken uuid choose c w), fun rc hc => ?_⟩
  obtain rfl : c = .redis rc := hc
  rw [World.brokenHandler_of_sound (sound rc)]
  exact w.redis.answer_ok rc

/-- The world after a delivery of `sampleMessage`, when the provider answers like this and
the calls in `broken` throw. -/
def afterDelivery (broken : Call → Bool) (outcome : Except JsError ProviderResult) (w : World) :
    World :=
  ((DeliveryProcessorService.processDelivery interfaceRepository ⟨"SMSProvider"⟩ sampleMessage).run
    (recorded (World.brokenHandler broken toString fun _ => { outcome := outcome })) (w, [])).2.1

/-- The provider rejects the only delivery so far, and the key is in the cache. -/
theorem cache_sound_fails :
    ¬ ∀ w, (inTurn toString (fun _ _ => True) fun _ _ _ _ _ => True).Reaches w →
      CacheSound w := by
  intro sound
  have run : (inTurn toString (fun _ _ => True) fun _ _ _ _ _ => True).Runs [] sampleWorld :=
    .start fun _ => rfl
  have rejected := run.executed (j := Delivering.sampleJob) trivial
    (redisUp_brokenHandler (fun _ => false) (fun _ => rfl) toString
      fun _ => { outcome := .error { message := "busy" } })
    fun _ _ => trivial
  obtain ⟨r, hr, -, hfinal⟩ := sound _ (.inl ⟨_, rejected⟩) sampleMessage.dedupKey rfl
  cases hr with
  | head => cases hfinal
  | tail _ h => cases h

theorem retains_brokenHandler (outcome : Except JsError ProviderResult) (c : Call) (w w' : World) :
    Retains Delivering.sampleJob w' w
      ⟨c, (World.brokenHandler takesBack toString (fun _ => { outcome := outcome }) c w).1⟩
      (World.brokenHandler takesBack toString (fun _ => { outcome := outcome }) c w).2 := by
  intro _ taken
  have isExternal : World.external c = true := by
    cases c with
    | repository c => rfl
    | _ => cases taken
  rw [World.brokenHandler_of_broken isExternal taken]

/-- A message that has been delivered before is delivered again from an empty cache. -/
theorem cache_sound_repeated :
    CacheSound (afterDelivery takesBack (.ok ⟨true, none⟩) DeliveryProcessorService.lostCache) ∧
    Marked sampleMessage.dedupKey
      (afterDelivery takesBack (.ok ⟨true, none⟩) DeliveryProcessorService.lostCache) := by
  have run : (inTurn toString Repeats Retains).Runs [] DeliveryProcessorService.lostCache :=
    .start fun _ => rfl
  exact ⟨cache_sound (.inl ⟨_, run.executed (j := Delivering.sampleJob)
    ⟨_, List.mem_cons_self, rfl, rfl⟩
    (redisUp_brokenHandler takesBack (fun _ => rfl) toString fun _ =>
      { outcome := .ok ⟨true, none⟩ })
    fun c w => retains_brokenHandler _ c w _⟩), rfl⟩

end DeliveredCache

end Notification
