import Notification.System.Correlation

/-!
# What a reply promises

However many requests run at once and whatever fails, a `202` means that exactly one message
event with the id of the reply is enqueued, now and for ever, and a `200` that there is none:
the id that it names is the one of the duplicate. No request enqueues more than one event.
-/

namespace Notification

open Interaction Program

/-- A message with this id; what the retry loop publishes has no tenant. -/
def carries (id : String) (value : Json) : Bool :=
  value.boundField "messageId" == some id && (value.get? "tenantId").isSome

/-- How many message events with this id are on the topics. -/
def World.copies (w : World) (id : String) : ℕ :=
  w.log.countP fun x => Ingress.messageTopic x.topic && carries id x.value

/-- A message event with this id is handed to Kafka, and Kafka may have taken it. -/
def publishes (id : String) : CallEvent → Bool
  | ⟨.produce topic _ value _, _⟩ => Ingress.messageTopic topic && carries id value
  | _ => false

/-- A message event with this id is handed to Kafka, and Kafka has taken it. -/
def confirms (id : String) : CallEvent → Bool
  | ⟨.produce topic _ value _, .ok _⟩ => Ingress.messageTopic topic && carries id value
  | _ => false

/-- The log has what was taken, and nothing but what was handed over. -/
structure Kept (id : String) (s : Services) : Prop where
  atLeast : s.history.countP (fun x => confirms id x.2) ≤ s.shared.copies id
  atMost : s.shared.copies id ≤ s.history.countP fun x => publishes id x.2

section Calls

variable {sha256 : String → String} {uuid : ℕ → String} {pid : ℕ} {w w' : World} {c : Call}
  {id : String}

theorem carries_record {o : Origin} {partition : ℕ} :
    carries id (o.record sha256 partition).value = true ↔ o.messageId = id := by
  obtain ⟨hid, htenant, -⟩ := Message.get?_toJson (MessageController.newMessage
    o.request.toRequest o.traceId o.messageId (o.request.dedupKey sha256))
  change carries id (MessageController.newMessage o.request.toRequest o.traceId o.messageId
    (o.request.dedupKey sha256)).toJson = true ↔ _
  rw [carries, Json.boundField, hid, htenant]
  simp [Json.boundText?, MessageController.newMessage, TextRequest.toRequest]

theorem not_carries_retryMessage (retry : PendingRetry) :
    carries id (Worker.retryMessage retry).toJson = false := by
  have hnone : (Worker.retryMessage retry).toJson.get? "tenantId" = none := by
    obtain ⟨messageId, channel, attempt⟩ := retry
    cases channel <;> rfl
  rw [carries, hnone]
  simp

/-- What one call does to the number of copies. -/
theorem copies_of_lossy (id : String) {r : Except JsError (Reply c)}
    (answer : w.lossy uuid pid ⟨c, r⟩ w') :
    (w'.copies id = w.copies id ∧ confirms id ⟨c, r⟩ = false) ∨
      (w'.copies id = w.copies id + 1 ∧ publishes id ⟨c, r⟩ = true) := by
  have quiet (hlog : w'.log = w.log) : w'.copies id = w.copies id := by
    rw [World.copies, hlog, World.copies]
  by_cases hproduce : ∃ topic key value headers, c = .produce topic key value headers
  · obtain ⟨topic, key, value, headers, rfl⟩ := hproduce
    have appended {r' : Except JsError Unit}
        (answer : w.up uuid pid ⟨.produce topic key value headers, r'⟩ w') :
        w'.copies id = w.copies id +
          if (Ingress.messageTopic topic && carries id value) = true then 1 else 0 := by
      obtain ⟨choice, answer⟩ := answer
      cases answer
      simp [World.copies, List.countP_append, List.countP_cons]
    have counted {r' : Except JsError Unit}
        (answer : w.up uuid pid ⟨.produce topic key value headers, r'⟩ w') :
        (w'.copies id = w.copies id ∧ confirms id ⟨.produce topic key value headers, r⟩ = false) ∨
          (w'.copies id = w.copies id + 1 ∧
            publishes id ⟨.produce topic key value headers, r⟩ = true) := by
      have hcopies := appended answer
      cases hcarries : Ingress.messageTopic topic && carries id value with
      | true => exact .inr ⟨by rw [hcopies, hcarries]; rfl, hcarries⟩
      | false =>
          refine .inl ⟨by rw [hcopies, hcarries]; rfl, ?_⟩
          cases r with
          | ok _ => exact hcarries
          | error e => rfl
    obtain (answer | ⟨-, hsame, e, he⟩) | ⟨-, -, r', answer⟩ := answer
    · exact counted answer
    · obtain rfl : r = .error e := he
      exact .inl ⟨quiet (congrArg World.log hsame), rfl⟩
    · exact counted answer
  · have hconfirms : confirms id ⟨c, r⟩ = false := by
      cases c with
      | produce topic key value headers => exact absurd ⟨_, _, _, _, rfl⟩ hproduce
      | _ => rfl
    refine .inl ⟨quiet ?_, hconfirms⟩
    obtain hsame | ⟨r', answer⟩ := effect_of_lossy answer
    · exact congrArg World.log hsame
    · obtain hlog | ⟨topic, partition, key, value, headers, hc, -⟩ := log_of_up answer
      · exact hlog
      · exact absurd ⟨_, _, _, _, hc⟩ hproduce

/-- A process that has published nothing has handed over no event. -/
theorem count_of_silent {t : Trace Reply JsError} (silent : ¬ Ingress.Published t) :
    t.countP (publishes id) = 0 := by
  refine List.countP_eq_zero.mpr fun ev member h => silent ?_
  refine List.any_eq_true.mpr ⟨ev, member, ?_⟩
  unfold publishes at h
  split at h
  · rw [Ingress.isPublish]
    exact (Bool.and_eq_true _ _ ▸ h).1
  · cases h

theorem Origin.Drawn.suffix {o : Origin} {t t' : Trace Reply JsError} (h : o.Drawn t)
    (suffix : t <:+ t') : o.Drawn t' := by
  obtain ⟨later, rfl⟩ := suffix
  obtain ⟨drawn, hdraws⟩ := h
  exact ⟨draws later ++ drawn, by rw [draws, List.filterMap_append, ← draws, ← draws, hdraws,
    List.append_assoc]⟩

/-- A job hands over an event under an id that it has drawn. -/
theorem drawn_of_job {kind : RepositoryKind} {job : ServiceJob} {ev : CallEvent}
    {before : Trace Reply JsError} (made : Services.JobCall kind sha256 job ev before)
    (h : publishes id ev = true) : ∃ o : Origin, o.Drawn before ∧ o.messageId = id := by
  obtain ⟨call, answer⟩ := ev
  cases job with
  | request r =>
      cases made with
      | publish o hrequest drawn silent valid =>
          exact ⟨o, drawn, carries_record.mp (Bool.and_eq_true _ _ ▸ h).2⟩
      | _ => cases h
  | batch b =>
      cases call with
      | produce topic key value headers =>
          have hsilent := Services.silent_of_batch made
          rw [publishes, hsilent] at h
          cases h
      | _ => cases h
  | poll =>
      cases made with
      | publish now items item key headers answered member =>
          rw [publishes, not_carries_retryMessage, Bool.and_false] at h
          cases h
      | _ => cases h

end Calls

namespace Services

variable {kind : RepositoryKind} {sha256 : String → String} {uuid : ℕ → String} {init : World}
  {allowed : Services → Action Reply JsError ServiceJob → Prop} {s s' : Services}
  {a : Action Reply JsError ServiceJob} {id : String}

theorem confirms_publishes {ev : CallEvent} (h : confirms id ev = true) :
    publishes id ev = true := by
  unfold confirms at h
  split at h
  · exact h
  · cases h

theorem kept_of_step (h : Kept id s) (step : (services kind sha256 uuid).Step s a s') :
    Kept id s' := by
  have atLeast := h.atLeast
  have atMost := h.atMost
  obtain ⟨hhistory, background⟩ | ⟨pid, ev, hhistory, answer⟩ := history_cases step
  · have hcopies : s'.shared.copies id = s.shared.copies id := by
      rw [World.copies, background.log, World.copies]
    exact ⟨by rw [hhistory, hcopies]; exact atLeast, by rw [hhistory, hcopies]; exact atMost⟩
  · constructor
    · rw [hhistory, List.countP_cons]
      obtain ⟨hcopies, hconfirms⟩ | ⟨hcopies, -⟩ := copies_of_lossy id answer
      · rw [hcopies, hconfirms]
        simpa using atLeast
      · rw [hcopies]
        split <;> omega
    · rw [hhistory, List.countP_cons]
      obtain ⟨hcopies, -⟩ | ⟨hcopies, hpublishes⟩ := copies_of_lossy id answer
      · rw [hcopies]
        omega
      · rw [hcopies, hpublishes]
        simpa using atMost

theorem kept (run : (services kind sha256 uuid).Run allowed init s) (fresh : init.Fresh)
    (id : String) : Kept id s := by
  refine run.invariant ?_ fun _ _ _ _ h step _ => kept_of_step h step
  constructor
  · exact Nat.zero_le _
  · rw [Pool.initial, World.copies, fresh.log]
    exact Nat.zero_le _

/-! ## One process for each id -/

/-- A request enqueues at most one event. -/
theorem publishes_once {r : TextRequest} {t : Trace Reply JsError}
    (h : Ingress.Asking sha256 r t) : t.countP (publishes id) ≤ 1 := by
  induction t with
  | nil => exact Nat.zero_le _
  | cons ev t ih =>
      obtain ⟨made, before⟩ := h
      rw [List.countP_cons]
      cases hpublishes : publishes id ev with
      | false => simpa using ih before
      | true =>
          have silent : ¬ Ingress.Published t := by
            obtain ⟨call, answer⟩ := ev
            cases made with
            | publish o hrequest drawn silent valid => exact silent
            | _ => cases hpublishes
          simp [count_of_silent silent]

/-- The process that hands over an event has drawn its id. -/
theorem drawn_of_publishes (run : (services kind sha256 uuid).Run allowed init s) {pid : ℕ}
    {ev : CallEvent} (member : (pid, ev) ∈ s.history) (h : publishes id ev = true) :
    ∃ proc, s.procs[pid]? = some proc ∧ id ∈ draws proc.trace := by
  have coherent := run.coherent
  obtain ⟨proc, hproc⟩ : ∃ proc, s.procs[pid]? = some proc :=
    ⟨_, List.getElem?_eq_getElem (coherent.started pid ev member)⟩
  refine ⟨proc, hproc, ?_⟩
  have made := run.always (fun _ _ _ _ => honest_of_answers) (fun job => calls_code job) hproc
  have own := mem_own.mpr member
  rw [coherent.traces pid proc hproc] at own
  obtain ⟨before, suffix, call⟩ := made.of_mem own
  obtain ⟨o, drawn, rfl⟩ := drawn_of_job call h
  exact (drawn.suffix ((List.suffix_cons ev before).trans suffix)).mem.1

/-- All events with an id that a process has drawn are its own. -/
theorem copies_of_drawn (run : (services kind sha256 uuid).Run allowed init s)
    (fresh : init.Fresh) (injective : Function.Injective uuid) {pid : ℕ} {proc : ServiceProc}
    (hproc : s.procs[pid]? = some proc) (drawn : id ∈ draws proc.trace) :
    proc.trace.countP (confirms id) ≤ s.shared.copies id ∧
      s.shared.copies id ≤ proc.trace.countP (publishes id) := by
  have coherent := run.coherent
  have only : ∀ x ∈ s.history, publishes id x.2 = true → x.1 = pid := by
    intro x member h
    obtain ⟨proc', hproc', drawn'⟩ := drawn_of_publishes run member h
    exact (numbered run injective).same_process coherent hproc' hproc drawn' drawn
  have counted := kept run fresh id
  constructor
  · rw [← coherent.traces pid proc hproc,
      ← countP_own fun x member h => only x member (confirms_publishes h)]
    exact counted.atLeast
  · rw [← coherent.traces pid proc hproc, ← countP_own only]
    exact counted.atMost

theorem asking (run : (services kind sha256 uuid).Run allowed init s) {pid : ℕ}
    {proc : ServiceProc} (hproc : s.procs[pid]? = some proc) {r : TextRequest}
    (hjob : proc.job = .request r) : Ingress.Asking sha256 r proc.trace := by
  have made := run.always (fun _ _ _ _ => honest_of_answers) (fun job => calls_code job) hproc
  rwa [hjob] at made

/-- No id is enqueued twice. -/
theorem copies_le_one (run : (services kind sha256 uuid).Run allowed init s)
    (fresh : init.Fresh) (injective : Function.Injective uuid) {o : Origin} (asked : Asked s o) :
    s.shared.copies o.messageId ≤ 1 := by
  obtain ⟨pid, proc, hproc, hjob, drawn⟩ := asked
  exact (copies_of_drawn run fresh injective hproc drawn.mem.1).2.trans
    (publishes_once (asking run hproc hjob))

/-- What a request that has come to its end tells the client. -/
theorem told (run : (services kind sha256 uuid).Run allowed init s) {pid : ℕ}
    {proc : ServiceProc} (hproc : s.procs[pid]? = some proc) {r : TextRequest}
    (hjob : proc.job = .request r) {out : Except JsError (Option HttpReply)}
    (hrest : proc.rest = .done out) :
    ∃ reply, out = .ok (some reply) ∧ Ingress.Told sha256 r proc.trace reply := by
  have code : ((services kind sha256 uuid).code proc.job).wp (recording Honest)
      (Ingress.Asking sha256 r)
      (fun out t => ∃ reply, out = .ok (some reply) ∧ Ingress.Told sha256 r t reply) [] := by
    rw [hjob]
    change (ServiceJob.code kind sha256 (.request r)).wp _ _ _ _
    rw [ServiceJob.code, wp_bind]
    apply mono_post Ingress.calls_createMessage
    intro o t h
    cases o with
    | error e => exact h.elim
    | ok reply => exact ⟨reply, rfl, h⟩
  exact (run.local_invariant (fun _ _ _ _ => honest_of_answers) hproc code
    (always_nil _)).2 out hrest

/-- However many requests run at once and whatever fails, a request that has come to its end
has answered `202` with an id under which exactly one event is enqueued, or `200` with an id
under which none is, or `400`; and no id is ever enqueued twice. -/
theorem replies_promise (run : (services kind sha256 uuid).Run allowed init s)
    (fresh : init.Fresh) (injective : Function.Injective uuid) :
    (∀ o, Asked s o → s.shared.copies o.messageId ≤ 1) ∧
    ∀ (pid : ℕ) (proc : ServiceProc) (r : TextRequest) (out : Except JsError (Option HttpReply)),
      s.procs[pid]? = some proc → proc.job = .request r → proc.rest = .done out →
      ∃ reply, out = .ok (some reply) ∧
        ((∃ o : Origin, o.request = r ∧ reply = ⟨202, .inl (o.reply sha256 .accepted)⟩ ∧
            s.shared.copies o.messageId = 1) ∨
          (∃ o : Origin, o.request = r ∧ reply = ⟨200, .inl (o.reply sha256 .duplicate)⟩ ∧
            s.shared.copies o.messageId = 0) ∨
          ∃ text, reply = ⟨400, .inr text⟩) := by
  constructor
  · exact fun o asked => copies_le_one run fresh injective asked
  · intro pid proc r out hproc hjob hrest
    obtain ⟨reply, rfl, told⟩ := told run hproc hjob hrest
    refine ⟨reply, rfl, ?_⟩
    obtain ⟨status, body⟩ := reply
    obtain ⟨o, m, hrequest, drawn, replied, hbody, hstatus⟩ | ⟨text, hbody, hstatus⟩ := told
    · obtain rfl : body = .inl m := hbody
      have copies := copies_of_drawn run fresh injective hproc drawn.mem.1
      obtain ⟨rfl, published⟩ | ⟨silent, cached, hcached, rfl⟩ := replied
      · obtain rfl : status = 202 := hstatus
        refine .inl ⟨o, hrequest, rfl, le_antisymm ?_ ?_⟩
        · exact copies.2.trans (publishes_once (asking run hproc hjob))
        · refine le_trans (List.countP_pos_iff.mpr ⟨_, published, ?_⟩) copies.1
          change (Ingress.messageTopic ("messages." ++ o.request.channel) &&
            carries o.messageId (o.record sha256 0).value) = true
          rw [Ingress.messageTopic_append, carries_record.mpr rfl]
          rfl
      · obtain rfl : status = 200 := hstatus
        rw [own_id_of_cached (traceable run fresh) hproc hcached]
        refine .inr (.inl ⟨o, hrequest, rfl, ?_⟩)
        rw [count_of_silent silent] at copies
        exact Nat.le_zero.mp copies.2
    · obtain rfl : body = .inr text := hbody
      obtain rfl : status = 400 := hstatus
      exact .inr (.inr ⟨text, rfl⟩)

end Services

/-- The order is placed a second time. -/
def orderRepeated (kind : RepositoryKind) : Services :=
  Services.after kind everything (.ok ⟨true, none⟩) (.request orderShipped) 20 (orderServed kind)

theorem run_orderRepeated (kind : RepositoryKind) :
    (services kind id toString).Run (fun _ _ => True) {} (orderRepeated kind) := by
  apply Services.run_after (fun _ _ _ => trivial) (run_orderServed kind)
  · trivial
  · trivial

theorem replies_promise_order :
    ((∀ o, Asked (orderRepeated .interface) o →
        (orderRepeated .interface).shared.copies o.messageId ≤ 1) ∧
      ∀ (pid : ℕ) (proc : ServiceProc) (r : TextRequest)
        (out : Except JsError (Option HttpReply)),
        (orderRepeated .interface).procs[pid]? = some proc → proc.job = .request r →
        proc.rest = .done out → ∃ reply, out = .ok (some reply) ∧
          ((∃ o : Origin, o.request = r ∧ reply = ⟨202, .inl (o.reply id .accepted)⟩ ∧
              (orderRepeated .interface).shared.copies o.messageId = 1) ∨
            (∃ o : Origin, o.request = r ∧ reply = ⟨200, .inl (o.reply id .duplicate)⟩ ∧
              (orderRepeated .interface).shared.copies o.messageId = 0) ∨
            ∃ text, reply = ⟨400, .inr text⟩)) ∧
    (orderRepeated .interface).shared.copies "1" = 1 ∧
    (orderRepeated .interface).shared.copies "4" = 0 :=
  ⟨Services.replies_promise (run_orderRepeated .interface) World.fresh_empty repr_injective,
    by decide, by decide⟩

end Notification
