import Notification.Lookup.FirstCome
import Notification.Router.Admission

/-!
# Tenants at the ingress

The cache key glues tenant and idempotency key together without escaping the separators,
so requests of two tenants may have the same cache key. What a tenant gets is then decided
by another tenant's requests. The handler is a first-come-first-served service for cache
keys, and so its answers to a tenant are those without another tenant's requests exactly
if no cache key is taken by the other tenant alone.
-/

namespace Notification

open Interaction FirstCome
open Ingress (messageTopic messageTopic_append)

/-- An object without some of its fields. -/
def Json.without (names : List String) : Json → Json
  | .object fields => .object (fields.filter fun f => f.1 ∉ names)
  | j => j

/-- What is left of a record without the generated identifiers. -/
def Record.anonymous (x : Record) : Record where
  topic := x.topic
  partition := 0
  key := x.key
  value := x.value.without ["messageId", "traceId"]
  headers := x.headers.filter fun h => h.1 != "traceId"

/-- A message event of a tenant. -/
def Record.isEventOf (tenantId : String) (x : Record) : Bool :=
  messageTopic x.topic && x.value.stringField "tenantId" == some tenantId

/-- The published events of a tenant, up to generated identifiers. -/
def World.eventsOf (w : World) (tenantId : String) : List Record :=
  (w.log.filter (Record.isEventOf tenantId)).map Record.anonymous

/-- A Redis key that is set. -/
def World.cached (w : World) (key : String) : Bool := (w.redis.live key).isSome

def statusOf (reply : Except JsError MessageResponse) : Option ResponseStatus :=
  reply.toOption.map MessageResponse.status

/-- The statuses that a tenant's requests get. -/
def answersTo (tenantId : String) (requests : List TextRequest)
    (replies : List (Except JsError MessageResponse)) : List (Option ResponseStatus) :=
  ((requests.zip replies).filter fun x => x.1.tenantId == tenantId).map fun x => statusOf x.2

/-- All requests but those of a tenant. -/
def withoutTenant (tenantId : String) (requests : List TextRequest) : List TextRequest :=
  requests.filter fun r => r.tenantId != tenantId

section Isolation

variable (sha256 : String → String) (uuid : ℕ → String) (choose : World → Choice)

/-- The world after requests that are handled one after another. -/
def served : List TextRequest → World → World
  | [], w => w
  | r :: rest, w => served rest
      ((MessageController.handleCreateMessage sha256 r.toRequest).run
        (World.handler uuid choose) w).2

/-- Nothing changes for tenant `a` without the requests of tenant `b`. -/
structure TenantIsolated (a b : String) (requests : List TextRequest) (w : World) : Prop where
  statuses : answersTo a requests (serveAll sha256 uuid choose requests w) =
    answersTo a (withoutTenant b requests)
      (serveAll sha256 uuid choose (withoutTenant b requests) w)
  events : (served sha256 uuid choose requests w).eventsOf a =
    (served sha256 uuid choose (withoutTenant b requests) w).eventsOf a

/-- The event of a request, up to generated identifiers. -/
def TextRequest.event (r : TextRequest) : Record :=
  Record.anonymous ⟨"messages." ++ r.channel, 0, some (.string r.userId),
    (MessageController.newMessage r.toRequest "" "" (r.dedupKey sha256)).toJson,
    [("traceId", ""), ("attempt", "0")]⟩

/-- What handling a request comes to. -/
structure Handles (r : TextRequest) (w : World) (reply : Except JsError MessageResponse)
    (w' : World) : Prop where
  status : statusOf reply = some (if w.cached r.cacheKey then .duplicate else .accepted)
  cached : ∀ key, w'.cached key = (w.cached key || key == r.cacheKey)
  events : ∀ a, w'.eventsOf a = w.eventsOf a ++
    if !w.cached r.cacheKey && r.tenantId == a then [r.event sha256] else []

variable {sha256 uuid choose} {r : TextRequest} {w : World}

theorem isEventOf_messageRecord (traceId messageId dedupKey : String) (partition : ℕ) (a : String) :
    (MessageController.messageRecord r traceId messageId dedupKey partition).isEventOf a =
      (r.tenantId == a) := by
  have hvalue : (MessageController.messageRecord r traceId messageId dedupKey
      partition).value.stringField "tenantId" = some r.tenantId := by
    rw [Json.stringField, MessageController.messageRecord, (Message.get?_toJson _).2.1]
    rfl
  rw [Record.isEventOf, hvalue, MessageController.messageRecord, messageTopic_append, Bool.true_and]
  rfl

theorem anonymous_messageRecord (traceId messageId : String) (partition : ℕ) :
    (MessageController.messageRecord r traceId messageId (r.dedupKey sha256) partition).anonymous =
      r.event sha256 := by
  simp [MessageController.messageRecord, TextRequest.event, Record.anonymous, Json.without,
    Message.toJson, Json.ofFields, MessageController.newMessage, TextRequest.toRequest]

variable (sha256 uuid choose) in
/-- The handler takes the request's key and publishes an event if the key was free. -/
theorem handles (valid : MessageController.validateRequest r.toRequest = .ok ()) (w : World) :
    Handles sha256 r w
      ((MessageController.handleCreateMessage sha256 r.toRequest).run
        (World.handler uuid choose) w).1
      ((MessageController.handleCreateMessage sha256 r.toRequest).run
        (World.handler uuid choose) w).2 := by
  have logs (a : String) {entry : Record} (h : entry.topic = "logs") :
    entry.isEventOf a = false := by
    have hlogs : messageTopic "logs" = false := by decide
    simp [Record.isEventOf, h, hlogs]
  cases hlive : w.redis.live r.cacheKey with
  | some e =>
      obtain ⟨w', entry, hrun, -, hredis, htopic, hlog⟩ :=
        MessageController.run_of_hit sha256 uuid choose valid hlive
      have hcached : w.cached r.cacheKey = true := by rw [World.cached, hlive]; rfl
      rw [hrun]
      refine ⟨by rw [hcached]; rfl, fun key => ?_, fun a => ?_⟩
      · rw [World.cached, hredis, Bool.eq_iff_iff, Bool.or_eq_true, beq_iff_eq]
        exact ⟨.inl, fun h => h.elim id fun h => h ▸ hcached⟩
      · simp [World.eventsOf, hlog, hcached, logs a htopic]
  | none =>
      obtain ⟨w', partition, entry, hrun, -, hredis, htopic, hlog⟩ :=
        MessageController.run_of_miss sha256 uuid choose valid hlive
      have hcached : w.cached r.cacheKey = false := by rw [World.cached, hlive]; rfl
      rw [hrun]
      refine ⟨by rw [hcached]; rfl, fun key => ?_, fun a => ?_⟩
      · rw [World.cached, hredis]
        by_cases hkey : key = r.cacheKey
        · rw [hkey, Redis.live_set_self, beq_self_eq_true, Bool.or_true]
          rfl
        · rw [Redis.live_set_ne _ hkey, beq_eq_false_iff_ne.mpr hkey, Bool.or_false]
          rfl
      · rw [World.eventsOf, hlog, List.filter_append, List.map_append, ← World.eventsOf, hcached,
          Bool.not_false, Bool.true_and]
        by_cases htenant : r.tenantId = a <;>
          simp [htenant, logs a htopic, isEventOf_messageRecord, anonymous_messageRecord]

/-! ## Sequences of requests -/

theorem answersTo_cons (a : String) (r : TextRequest) (rest : List TextRequest)
    (reply : Except JsError MessageResponse) (replies : List (Except JsError MessageResponse)) :
    answersTo a (r :: rest) (reply :: replies) =
      (if r.tenantId == a then [statusOf reply] else []) ++ answersTo a rest replies := by
  cases h : r.tenantId == a <;> simp [answersTo, h]

/-- A tenant's requests are answered as the first-come-first-served service admits them. -/
theorem answersTo_serveAll {requests : List TextRequest}
    (valid : ∀ r ∈ requests, MessageController.validateRequest r.toRequest = .ok ())
    (a : String) (w : World) :
    answersTo a requests (serveAll sha256 uuid choose requests w) =
      (admitted TextRequest.cacheKey (fun r => r.tenantId == a) w.cached requests).map fun x =>
        some (if x.2 then .accepted else .duplicate) := by
  induction requests generalizing w with
  | nil => rfl
  | cons r rest ih =>
      have h := handles sha256 uuid choose (valid r List.mem_cons_self) w
      rw [serveAll, answersTo_cons, admitted_cons,
        ih fun r' hr' => valid r' (List.mem_cons_of_mem _ hr'),
        funext h.cached, h.status, List.map_append]
      cases r.tenantId == a <;> cases w.cached r.cacheKey <;> rfl

/-- The events of a tenant are those of its admitted requests. -/
theorem eventsOf_served {requests : List TextRequest}
    (valid : ∀ r ∈ requests, MessageController.validateRequest r.toRequest = .ok ())
    (a : String) (w : World) :
    (served sha256 uuid choose requests w).eventsOf a = w.eventsOf a ++
      ((admitted TextRequest.cacheKey (fun r => r.tenantId == a) w.cached requests).filter
        Prod.snd).map fun x => x.1.event sha256 := by
  induction requests generalizing w with
  | nil => exact (List.append_nil _).symm
  | cons r rest ih =>
      have h := handles sha256 uuid choose (valid r List.mem_cons_self) w
      rw [served, admitted_cons, ih fun r' hr' => valid r' (List.mem_cons_of_mem _ hr'),
        funext h.cached, h.events, List.append_assoc, List.filter_append, List.map_append]
      cases r.tenantId == a <;> cases w.cached r.cacheKey <;> rfl

variable {a b : String} {requests : List TextRequest}

theorem valid_withoutTenant
    (valid : ∀ r ∈ requests, MessageController.validateRequest r.toRequest = .ok ()) :
    ∀ r ∈ withoutTenant b requests, MessageController.validateRequest r.toRequest = .ok () :=
  fun r hr => valid r (List.mem_filter.mp hr).1

theorem other_tenant (distinct : a ≠ b) (r : TextRequest) (h : (r.tenantId == a) = true) :
    (r.tenantId != b) = true := by
  rw [beq_iff_eq.mp h]
  exact bne_iff_ne.mpr distinct

theorem tenantIsolated_of_independent (distinct : a ≠ b)
    (valid : ∀ r ∈ requests, MessageController.validateRequest r.toRequest = .ok ())
    (independent : Independent TextRequest.cacheKey (fun r => r.tenantId != b)
      (fun r => r.tenantId == a) w.cached requests) :
    TenantIsolated sha256 uuid choose a b requests w := by
  have same := (admitted_filter_kept_iff (other_tenant distinct) requests).mpr independent
  constructor
  · rw [answersTo_serveAll valid, answersTo_serveAll (valid_withoutTenant valid), same]
    rfl
  · rw [eventsOf_served valid, eventsOf_served (valid_withoutTenant valid), same]
    rfl

/-- Tenant `a` is isolated from tenant `b` exactly if no request of `a` meets a cache key
that only requests of `b` have taken. -/
theorem tenantIsolated_iff (sha256 : String → String) (uuid : ℕ → String)
    (choose : World → Choice) (w : World) (distinct : a ≠ b)
    (valid : ∀ r ∈ requests, MessageController.validateRequest r.toRequest = .ok ()) :
    TenantIsolated sha256 uuid choose a b requests w ↔
      Independent TextRequest.cacheKey (fun r => r.tenantId != b) (fun r => r.tenantId == a)
        w.cached requests := by
  refine ⟨fun isolated => ?_, tenantIsolated_of_independent distinct valid⟩
  rw [← admitted_filter_kept_iff (other_tenant distinct)]
  have hstatuses := isolated.statuses
  rw [answersTo_serveAll valid, answersTo_serveAll (valid_withoutTenant valid)] at hstatuses
  have hflags := congrArg (List.map fun status => status == some ResponseStatus.accepted) hstatuses
  have flag (b : Bool) :
      ((some (if b then ResponseStatus.accepted else .duplicate)) == some .accepted) = b := by
    cases b <;> rfl
  simp only [List.map_map, Function.comp_def, flag] at hflags
  refine admitted_ext ?_ hflags
  rw [List.filter_filter]
  apply List.filter_congr
  intro r _
  cases hwatched : r.tenantId == a with
  | false => rfl
  | true => exact (other_tenant distinct r hwatched).symm

/-- The cache key of a tenant whose name has no colon tells the tenant. -/
theorem tenantId_of_cacheKey {r r' : TextRequest} (h : NoColon r.tenantId)
    (h' : NoColon r'.tenantId) (heq : r.cacheKey = r'.cacheKey) : r.tenantId = r'.tenantId := by
  have hsplit {r : TextRequest} (h : NoColon r.tenantId) : splitColon r.cacheKey =
      "idem" :: "tenant" :: r.tenantId :: splitColon ("key:" ++ r.idempotencyKey) := by
    have htext : r.cacheKey = "idem" ++ ":" ++ ("tenant" ++ ":" ++
        (r.tenantId ++ ":" ++ ("key:" ++ r.idempotencyKey))) := by
      simp [TextRequest.cacheKey, String.ext_iff]
    rw [htext, splitColon_append (by decide), splitColon_append (by decide), splitColon_append h]
  have hsplits := congrArg splitColon heq
  rw [hsplit h, hsplit h'] at hsplits
  simp only [List.cons.injEq, true_and] at hsplits
  exact hsplits.1

/-- Tenants whose names have no colon are isolated from each other. -/
theorem tenantIsolated_of_noColon (distinct : a ≠ b)
    (valid : ∀ r ∈ requests, MessageController.validateRequest r.toRequest = .ok ())
    (noColon : ∀ r ∈ requests, NoColon r.tenantId) :
    TenantIsolated sha256 uuid choose a b requests w := by
  apply tenantIsolated_of_independent distinct valid
  rintro before r after rfl hr - ⟨q, hq, hother, hkey⟩
  have hmem : q ∈ before ++ r :: after := List.mem_append_left _ hq
  have htenant := tenantId_of_cacheKey (noColon q hmem) (noColon r (by simp)) hkey
  rw [beq_iff_eq] at hr
  rw [bne_eq_false_iff_eq, htenant, hr] at hother
  exact absurd hother distinct

end Isolation

/-- A request of tenant `t` for the key `x:key:y`, and one of `t:key:x` for `y`. -/
def gluedRequests : List TextRequest :=
  [{ orderShipped with tenantId := "t", idempotencyKey := "x:key:y" },
    { orderShipped with tenantId := "t:key:x", idempotencyKey := "y" }]

/-- The second request is a duplicate because of the first one. -/
theorem tenantIsolated_fails :
    (serveAll (fun text => text) toString (fun _ => { outcome := .ok ⟨true, none⟩ })
        gluedRequests {}).map statusOf = [some .accepted, some .duplicate] ∧
    (serveAll (fun text => text) toString (fun _ => { outcome := .ok ⟨true, none⟩ })
        (withoutTenant "t" gluedRequests) {}).map statusOf = [some .accepted] ∧
    ¬ TenantIsolated (fun text => text) toString (fun _ => { outcome := .ok ⟨true, none⟩ })
      "t:key:x" "t" gluedRequests {} := by
  refine ⟨rfl, rfl, fun isolated => ?_⟩
  have h := isolated.statuses
  rw [show answersTo "t:key:x" gluedRequests _ = [some .duplicate] from rfl,
    show answersTo "t:key:x" (withoutTenant "t" gluedRequests) _ = [some .accepted] from rfl] at h
  exact absurd h (by decide)

/-- Two tenants with one idempotency key. -/
theorem tenantIsolated_friendly :
    TenantIsolated (fun text => text) toString (fun _ => { outcome := .ok ⟨true, none⟩ })
      "tenant-1" "tenant-2" [{ orderShipped with tenantId := "tenant-2" }, orderShipped] {} := by
  refine (tenantIsolated_iff _ _ _ _ (by decide) fun r hr => ?_).mpr ?_
  · simp only [List.mem_cons, List.not_mem_nil, or_false] at hr
    rcases hr with rfl | rfl <;> rfl
  · rintro before r after - hr - ⟨q, -, hother, hkey⟩
    rw [beq_iff_eq] at hr
    rw [bne_eq_false_iff_eq] at hother
    have htenant := tenantId_of_cacheKey (by rw [hother]; decide) (by rw [hr]; decide) hkey
    rw [hr, hother] at htenant
    exact absurd htenant (by decide)

end Notification
