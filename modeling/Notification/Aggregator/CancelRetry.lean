import Notification.Aggregator.RetryBudget
import Notification.Infra.Keyspace

/-!
# Cancelling the retries of a message

`cancelRetry` looks for the members of the sorted set among the names of the top-level keys, and
removes what it finds there. So it removes exactly the retries of the message when those and no
other members happen to be such names too; in this system none is.
-/

namespace Notification

open Interaction Program

namespace KeyClient

def keys (pattern : String) : Program KeyCall.Reply JsError (List String) :=
  perform (KeyCall.keys pattern)

def zRem (key member : String) : Program KeyCall.Reply JsError ℕ :=
  perform (KeyCall.zRem key member)

@[simp] theorem run_keys (pattern : String) (k : Keyspace) :
    (keys pattern).run Keyspace.answer k =
      (.ok (k.names.filter fun name => glob pattern name), k) :=
  rfl

@[simp] theorem run_zRem (key member : String) (k : Keyspace) :
    (zRem key member).run Keyspace.answer k =
      (.ok ((k.zsets key).filter fun m => m.1 == member).length, k.zRem key member) := rfl

end KeyClient

namespace RetrySchedulerService

/-- `${messageId}:${channel}:*` -/
def cancelPattern (messageId channel : String) : String := messageId ++ ":" ++ channel ++ ":" ++ "*"

/-- An error is logged only. -/
def cancelRetry (messageId channel : String) : Program KeyCall.Reply JsError Unit :=
  try
    let keys ← KeyClient.keys (cancelPattern messageId channel)
    let _ ← forEach keys fun key => KeyClient.zRem "retries" key
    pure ()
  catch _ => pure ()

end RetrySchedulerService

namespace CancelRetry

open RetrySchedulerService (cancelRetry cancelPattern payload)

/-- The member is a retry of this message on this channel, for any attempt. -/
def RetryOf (messageId channel member : String) : Prop :=
  ∃ attempt : Int, member = payload messageId channel attempt

/-- A top-level key has the name of the member, and the pattern matches it. -/
def Found (messageId channel : String) (k : Keyspace) (member : String) : Prop :=
  member ∈ k.names ∧ glob (cancelPattern messageId channel) member = true

/-- Redis after `cancelRetry`. -/
def cancelled (messageId channel : String) (k : Keyspace) : Keyspace :=
  ((cancelRetry messageId channel).run Keyspace.answer k).2

/-- The retries of the message are gone, and the others are still there with their scores. -/
structure CancelsExactly (messageId channel : String) (k k' : Keyspace) : Prop where
  gone : ∀ x ∈ k'.zsets "retries", ¬ RetryOf messageId channel x.1
  others : ∀ x ∈ k.zsets "retries", ¬ RetryOf messageId channel x.1 → x ∈ k'.zsets "retries"

variable {messageId channel : String} {k : Keyspace}

theorem zRem_zsets (k : Keyspace) (key member : String) :
    (k.zRem key member).zsets key = (k.zsets key).filter fun m => m.1 != member := by
  simp [Keyspace.zRem, Redis.zRem]

/-- The loop takes out just the members it is given. -/
theorem run_zRems (members : List String) (k : Keyspace) :
    ∃ k' counts, (forEach members fun key => KeyClient.zRem "retries" key).run Keyspace.answer k =
        (.ok counts, k') ∧
      ∀ x, x ∈ k'.zsets "retries" ↔ x ∈ k.zsets "retries" ∧ x.1 ∉ members := by
  induction members generalizing k with
  | nil => exact ⟨k, [], rfl, fun x => by simp⟩
  | cons member rest ih =>
      obtain ⟨k', counts, hrun, hkept⟩ := ih (k.zRem "retries" member)
      refine ⟨k', _, by simp only [forEach, run_bind, KeyClient.run_zRem, andThen_ok, hrun]; rfl,
        fun x => ?_⟩
      rw [hkept, zRem_zsets, List.mem_filter, bne_iff_ne, List.mem_cons, not_or, and_assoc]

theorem mem_cancelled (x : String × Int) : x ∈ (cancelled messageId channel k).zsets "retries" ↔
    x ∈ k.zsets "retries" ∧ ¬ Found messageId channel k x.1 := by
  obtain ⟨k', counts, hrun, hkept⟩ :=
    run_zRems (k.names.filter fun name => glob (cancelPattern messageId channel) name) k
  have hcancelled : cancelled messageId channel k = k' := by
    simp only [cancelled, cancelRetry, run_tryCatch, run_bind, KeyClient.run_keys, andThen_ok, hrun,
      run_pure, orElse_ok]
  rw [hcancelled, hkept, List.mem_filter, Found]

/-- Cancelling removes exactly the retries of the message when these are the members that are
found among the names of the top-level keys. -/
theorem cancels_exactly_iff (messageId channel : String) (k : Keyspace) :
    CancelsExactly messageId channel k (cancelled messageId channel k) ↔
      ∀ x ∈ k.zsets "retries", RetryOf messageId channel x.1 ↔ Found messageId channel k x.1 := by
  constructor
  · intro h x hx
    constructor
    · intro own
      by_contra missed
      exact h.gone x ((mem_cancelled x).mpr ⟨hx, missed⟩) own
    · intro found
      by_contra other
      exact ((mem_cancelled x).mp (h.others x hx other)).2 found
  · intro h
    constructor
    · intro x hx own
      obtain ⟨hbefore, missed⟩ := (mem_cancelled x).mp hx
      exact missed ((h x hbefore).mp own)
    · intro x hx other
      exact (mem_cancelled x).mpr ⟨hx, fun found => other ((h x hx).mpr found)⟩

/-- For ids and channels without special characters a key is found if it begins like their
members. -/
theorem found_iff_of_plain (id_plain : Plain messageId) (channel_plain : Plain channel)
    (member : String) : Found messageId channel k member ↔
      member ∈ k.names ∧ (messageId ++ ":" ++ channel ++ ":").toList <+: member.toList := by
  have plain : Plain (messageId ++ ":" ++ channel ++ ":") := by
    intro c hc
    simp only [String.toList_append, List.mem_append] at hc
    obtain ((hc | hc) | hc) | hc := hc
    · exact id_plain c hc
    · rw [List.mem_singleton.mp hc]
      decide
    · exact channel_plain c hc
    · rw [List.mem_singleton.mp hc]
      decide
  rw [Found, cancelPattern, glob_plain plain]

/-- As long as no key has the name of a member, only a message without retries is cancelled
rightly. -/
theorem cancels_iff_unscheduled (apart : ∀ x ∈ k.zsets "retries", x.1 ∉ k.names) :
    CancelsExactly messageId channel k (cancelled messageId channel k) ↔
      ∀ x ∈ k.zsets "retries", ¬ RetryOf messageId channel x.1 := by
  rw [cancels_exactly_iff]
  exact forall₂_congr fun x hx => ⟨fun h own => apart x hx (h.mp own).1,
    fun h => iff_of_false h fun found => apart x hx found.1⟩

theorem stored_of_scheduled {key name member : String} {score : Int} :
    (({} : Redis).zAdd key score member).Stored name ↔ name = key := by
  by_cases h : name = key
  · subst h
    exact iff_of_true (.inr (by simp [Redis.insertSorted])) rfl
  · refine iff_of_false ?_ h
    simp [Redis.Stored, Redis.live, Redis.zAdd, h]

/-- Redis after one retry has been scheduled, with the set as its only key. -/
def scheduledKeys : Keyspace where
  toRedis := ((RetrySchedulerService.scheduleRetry "m-1" "sms" 1 1000).run
    (World.handler toString fun _ => { outcome := .ok ⟨true, none⟩ }) {}).2.redis
  names := ["retries"]
  complete key := by
    exact List.mem_singleton.trans stored_of_scheduled.symm

/-- The retry is still scheduled after it has been cancelled. -/
theorem cancels_exactly_fails :
    ¬ CancelsExactly "m-1" "sms" scheduledKeys (cancelled "m-1" "sms" scheduledKeys) := by
  rw [cancels_iff_unscheduled (by decide)]
  intro unscheduled
  exact unscheduled ("m-1:sms:2", 1000) (by decide) ⟨2, rfl⟩

end CancelRetry

end Notification
