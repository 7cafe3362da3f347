import Mathlib.Data.List.Nodup
import Notification.System.Provenance

/-!
# What an id tells

Ids are uuids: no two draws are the same. So an id of a report, a row or a provider call leads
back to one request, and everything under that id agrees on the tenant's user, the channel,
the dedup key and the trace.
-/

namespace Notification

open Interaction Program

/-! ## Drawing ids -/

/-- The uuids drawn so far, with the processes that have drawn them, the latest first. -/
def drawnBy (history : List (ℕ × CallEvent)) : List (ℕ × String) :=
  history.filterMap fun
    | (pid, ⟨.uuidv4, .ok id⟩) => some (pid, id)
    | _ => none

theorem mem_drawnBy {history : List (ℕ × CallEvent)} {pid : ℕ} {id : String}
    (h : id ∈ draws (own pid history)) : (pid, id) ∈ drawnBy history := by
  obtain ⟨ev, hev, hid⟩ := List.mem_filterMap.mp h
  apply List.mem_filterMap.mpr
  refine ⟨(pid, ev), mem_own.mp hev, ?_⟩
  split at hid
  · next id' => cases hid; rfl
  · cases hid

theorem drawnBy_draw (pid : ℕ) (id : String) (history : List (ℕ × CallEvent)) :
    drawnBy ((pid, ⟨.uuidv4, .ok id⟩) :: history) = (pid, id) :: drawnBy history := rfl

theorem drawnBy_other (pid : ℕ) (ev : CallEvent) (history : List (ℕ × CallEvent))
    (noDraw : ev.call ≠ .uuidv4) : drawnBy ((pid, ev) :: history) = drawnBy history := by
  obtain ⟨call, answer⟩ := ev
  cases call with
  | uuidv4 => exact absurd rfl noDraw
  | _ => rfl

/-- The uuids drawn so far are the first ones, each drawn once. -/
structure Numbered (uuid : ℕ → String) (s : Services) : Prop where
  old : ∀ x ∈ drawnBy s.history, ∃ k < s.shared.uuids, x.2 = uuid k
  nodup : ((drawnBy s.history).map Prod.snd).Nodup

theorem uuids_of_lossy {uuid : ℕ → String} {pid : ℕ} {w w' : World} {ev : CallEvent}
    (answer : w.lossy uuid pid ev w') (noDraw : ev.call ≠ .uuidv4) : w'.uuids = w.uuids := by
  obtain rfl | ⟨r, choice, answer⟩ := effect_of_lossy answer
  · rfl
  · obtain ⟨call, answered⟩ := ev
    cases call with
    | uuidv4 => exact absurd rfl noDraw
    | sql c =>
        obtain ⟨out, -, heq⟩ := Option.map_eq_some_iff.mp answer
        cases heq
        rfl
    | repository c =>
        obtain ⟨out, -, heq⟩ := Option.map_eq_some_iff.mp answer
        cases heq
        rfl
    | _ =>
        cases answer
        rfl

theorem World.Background.uuids {w w' : World} (h : w.Background w') : w'.uuids = w.uuids := by
  cases h with
  | commit b =>
      unfold World.commit
      split <;> rfl
  | _ => rfl

namespace Services

variable {kind : RepositoryKind} {sha256 : String → String} {uuid : ℕ → String} {init : World}
  {allowed : Services → Action Reply JsError ServiceJob → Prop} {s s' : Services}
  {a : Action Reply JsError ServiceJob}

theorem numbered_of_step (injective : Function.Injective uuid) (h : Numbered uuid s)
    (step : (services kind sha256 uuid).Step s a s') : Numbered uuid s' := by
  obtain ⟨hhistory, background⟩ | ⟨pid, ⟨c, r⟩, hhistory, answer⟩ := history_cases step
  · exact ⟨by rw [hhistory, background.uuids]; exact h.old, by rw [hhistory]; exact h.nodup⟩
  by_cases hdraw : c = .uuidv4
  · subst hdraw
    obtain ⟨rfl, hshared⟩ := draws_of_lossy answer
    constructor
    · rw [hhistory, drawnBy_draw, hshared]
      intro x hx
      obtain rfl | hx := List.mem_cons.mp hx
      · exact ⟨_, Nat.lt_succ_self _, rfl⟩
      · obtain ⟨k, hk, hid⟩ := h.old x hx
        exact ⟨k, Nat.lt_succ_of_lt hk, hid⟩
    · rw [hhistory, drawnBy_draw, List.map_cons, List.nodup_cons]
      refine ⟨fun hmem => ?_, h.nodup⟩
      obtain ⟨x, hx, heq⟩ := List.mem_map.mp hmem
      obtain ⟨k, hk, hid⟩ := h.old x hx
      have hsame : k = s.shared.uuids := injective (hid.symm.trans heq)
      omega
  · have hold := drawnBy_other pid ⟨c, r⟩ s.history hdraw
    constructor
    · rw [hhistory, hold, uuids_of_lossy answer hdraw]
      exact h.old
    · rw [hhistory, hold]
      exact h.nodup

theorem numbered (run : (services kind sha256 uuid).Run allowed init s)
    (injective : Function.Injective uuid) : Numbered uuid s := by
  refine run.invariant ⟨fun x hx => ?_, List.nodup_nil⟩ fun _ _ _ _ h step _ =>
    numbered_of_step injective h step
  cases hx

end Services

/-! ## Ids and origins -/

/-- A request has been started that has drawn the ids of the origin. -/
def Asked (s : Services) (o : Origin) : Prop :=
  ∃ (pid : ℕ) (proc : ServiceProc), s.procs[pid]? = some proc ∧
    proc.job = .request o.request ∧ o.Drawn proc.trace

theorem Requested.asked {s : Services} {o : Origin} (h : Requested s o) : Asked s o := by
  obtain ⟨pid, proc, hproc, hjob, drawn, -⟩ := h
  exact ⟨pid, proc, hproc, hjob, drawn⟩

theorem Origin.Drawn.mem {o : Origin} {t : Trace Reply JsError} (h : o.Drawn t) :
    o.messageId ∈ draws t ∧ o.traceId ∈ draws t := by
  obtain ⟨later, hdraws⟩ := h
  rw [hdraws]
  simp

section Ids

variable {kind : RepositoryKind} {sha256 : String → String} {uuid : ℕ → String} {s s' : Services}
  {a : Action Reply JsError ServiceJob} {o o' : Origin}

theorem Asked.step (h : Asked s o) (step : (services kind sha256 uuid).Step s a s') :
    Asked s' o := by
  obtain ⟨pid, proc, hproc, hjob, drawn⟩ := h
  obtain ⟨proc', hproc', hjob', htrace⟩ := step.proc_stays hproc
  refine ⟨pid, proc', hproc', hjob'.trans hjob, ?_⟩
  obtain htrace | ⟨ev, -, htrace⟩ := htrace
  · rwa [htrace]
  · rw [htrace]
    exact drawn.cons ev

/-- Nobody else draws the same uuid. -/
theorem Numbered.same_process (h : Numbered uuid s)
    (coherent : (services kind sha256 uuid).Coherent s) {p q : ℕ} {P Q : ServiceProc}
    (hP : s.procs[p]? = some P) (hQ : s.procs[q]? = some Q) {id : String}
    (drawn : id ∈ draws P.trace) (drawn' : id ∈ draws Q.trace) : p = q := by
  rw [← coherent.traces p P hP] at drawn
  rw [← coherent.traces q Q hQ] at drawn'
  have same := List.inj_on_of_nodup_map h.nodup (mem_drawnBy drawn) (mem_drawnBy drawn') rfl
  exact congrArg Prod.fst same

theorem Asked.eq_of_drawn (asked : Asked s o) (asked' : Asked s o') (h : Numbered uuid s)
    (coherent : (services kind sha256 uuid).Coherent s)
    (same : o.messageId = o'.messageId ∨ o.traceId = o'.traceId) : o = o' := by
  obtain ⟨p, P, hP, hjob, drawn⟩ := asked
  obtain ⟨q, Q, hQ, hjob', drawn'⟩ := asked'
  have hpq : p = q := by
    obtain same | same := same
    · exact h.same_process coherent hP hQ drawn.mem.1 (same ▸ drawn'.mem.1)
    · exact h.same_process coherent hP hQ drawn.mem.2 (same ▸ drawn'.mem.2)
  subst hpq
  obtain rfl : P = Q := Option.some.inj (hP.symm.trans hQ)
  obtain ⟨hid, htrace⟩ := drawn.unique drawn'
  have hrequest : o.request = o'.request := ServiceJob.request.inj (hjob.symm.trans hjob')
  obtain ⟨request, traceId, messageId⟩ := o
  obtain ⟨request', traceId', messageId'⟩ := o'
  rw [Origin.mk.injEq]
  exact ⟨hrequest, htrace, hid⟩

end Ids

/-! ## Reports -/

/-- A log record reports about an origin. -/
structure Origin.Reports (sha256 : String → String) (o : Origin) (x : Record) : Prop where
  key : x.key = some (.string o.traceId)
  traceId : x.value.get? "traceId" = some (.string o.traceId)
  messageId : x.value.get? "messageId" = some (.string o.messageId)
  userId : x.value.get? "userId" = some (.string o.request.userId)
  dedupKey : x.value.get? "dedupKey" = some (.string (o.request.dedupKey sha256))
  channel : x.value.get? "channel" = some (.string o.request.channel)

namespace Services

variable {kind : RepositoryKind} {sha256 : String → String} {uuid : ℕ → String} {init : World}
  {allowed : Services → Action Reply JsError ServiceJob → Prop} {s s' : Services}
  {a : Action Reply JsError ServiceJob}

/-- The log records of the aggregator report about the message that is delivered. -/
theorem reports_of_batch {w : World} {b : Batch} (genuine : Genuine sha256 w) (read : Read w b)
    {key : Option Json} {value : Json} {headers : List (String × String)}
    (made : BatchCall kind b (.produce "logs" key value headers)) :
    ∃ o, w.Published sha256 o ∧
      ∀ partition, o.Reports sha256 ⟨"logs", partition, key, value, headers⟩ := by
  cases made with
  | prepare c prepares => cases prepares
  | deliver e provider c member wellFormed hprovider delivers =>
      obtain ⟨o, published, -, rfl, -⟩ := genuine.origin_of_wellFormed read member wellFormed
      cases kind with
      | statements => cases delivers
      | interface =>
          generalize htopic : "logs" = topic at delivers
          cases delivers with
          | log status text error =>
              refine ⟨o, published, fun partition => ?_⟩
              constructor <;> rfl
          | dlq reason h => exact absurd (congrArg String.toList htopic) (by simp)
          | report key reason h => exact absurd htopic (by decide)

/-- Every log record is a report about a request that has been started. -/
def Reported (sha256 : String → String) (s : Services) : Prop :=
  ∀ x ∈ s.shared.log, x.topic = "logs" → ∃ o, Asked s o ∧ o.Reports sha256 x

/-- The caches hold no ids, so a duplicate is answered with its own. -/
theorem own_id_of_cached (h : Traceable sha256 s) {pid : ℕ} {proc : ServiceProc}
    (hproc : s.procs[pid]? = some proc) {key : String} {cached : Option Json}
    (hcached : cached = none ∨ ⟨.redis (.get key), .ok cached⟩ ∈ proc.trace) (own : String) :
    MessageController.cachedMessageId cached own = own := by
  obtain rfl | answered := hcached
  · rfl
  · cases cached with
    | none => rfl
    | some value =>
        rw [(h.heard pid proc hproc _ answered).cached _ value rfl]
        rfl

theorem reports_of_job (h : Traceable sha256 s) {pid : ℕ} {proc : ServiceProc}
    (hproc : s.procs[pid]? = some proc) {key : Option Json} {value : Json}
    {headers : List (String × String)} {answered : Except JsError Unit}
    (made : JobCall kind sha256 proc.job ⟨.produce "logs" key value headers, answered⟩
      proc.trace) :
    ∃ o, Asked s o ∧ ∀ partition, o.Reports sha256 ⟨"logs", partition, key, value, headers⟩ := by
  unfold JobCall at made
  split at made
  · next r hjob =>
    generalize htopic : "logs" = topic at made
    cases made with
    | publish o hrequest drawn silent valid =>
        exact absurd (congrArg String.toList htopic) (by simp [Origin.record,
          MessageController.messageRecord])
    | accepted o spanId hrequest drawn =>
        subst hrequest
        refine ⟨o, ⟨pid, proc, hproc, hjob, drawn⟩, fun partition => ?_⟩
        constructor <;> rfl
    | duplicate o spanId cached hrequest drawn hcached =>
        subst hrequest
        rw [own_id_of_cached h hproc hcached]
        refine ⟨o, ⟨pid, proc, hproc, hjob, drawn⟩, fun partition => ?_⟩
        constructor <;> rfl
    | failed key traceId error => exact absurd htopic (by decide)
  · next b hjob =>
    obtain ⟨o, published, reports⟩ :=
      reports_of_batch h.toGenuine (h.read pid proc b hproc hjob) made
    exact ⟨o, (h.requested o published).asked, reports⟩
  · generalize htopic : "logs" = topic at made
    cases made with
    | publish now items item key headers answered member =>
        exact absurd (congrArg String.toList htopic) (by simp)

/-- What every record has that a job publishes, every record on the topics has. -/
theorem records_of_run {φ : Services → Record → Prop}
    (run : (services kind sha256 uuid).Run allowed init s) (fresh : init.Fresh)
    (stays : ∀ {s s' : Services} {a : Action Reply JsError ServiceJob} {x : Record},
      (services kind sha256 uuid).Step s a s' → φ s x → φ s' x)
    (made : ∀ {s : Services} {pid : ℕ} {proc : ServiceProc} {topic : String} {key : Option Json}
      {value : Json} {headers : List (String × String)} {answered : Except JsError Unit},
      Traceable sha256 s → s.procs[pid]? = some proc →
      JobCall kind sha256 proc.job ⟨.produce topic key value headers, answered⟩ proc.trace →
      ∀ partition, φ s ⟨topic, partition, key, value, headers⟩) :
    ∀ x ∈ s.shared.log, φ s x := by
  refine run.invariant (P := fun s => ∀ x ∈ s.shared.log, φ s x) ?_ ?_
  · intro x hx
    rw [Pool.initial, fresh.log] at hx
    cases hx
  · intro s a s' before h step permitted x hx
    obtain hsame | ⟨pid, ev, rfl⟩ | background := shared_cases step
    · exact stays step (h x (hsame ▸ hx))
    · obtain ⟨proc, hproc, answer, called⟩ := turn_makes before step permitted
      obtain ⟨call, answered⟩ := ev
      obtain hsame | ⟨r, answer⟩ := effect_of_lossy answer
      · exact stays step (h x (hsame ▸ hx))
      · obtain hlog | ⟨topic, partition, key, value, headers, rfl, hlog⟩ := log_of_up answer
        · exact stays step (h x (hlog ▸ hx))
        · rw [hlog] at hx
          obtain hx | hx := List.mem_append.mp hx
          · exact stays step (h x hx)
          · obtain rfl := List.mem_singleton.mp hx
            exact stays step (made (traceable before fresh) hproc called partition)
    · exact stays step (h x (background.log ▸ hx))

theorem reported (run : (services kind sha256 uuid).Run allowed init s) (fresh : init.Fresh) :
    Reported sha256 s := by
  apply records_of_run (φ := fun s x => x.topic = "logs" → ∃ o, Asked s o ∧ o.Reports sha256 x)
    run fresh
  · intro s s' a x step h htopic
    obtain ⟨o, asked, reports⟩ := h htopic
    exact ⟨o, asked.step step, reports⟩
  · rintro s pid proc topic key value headers answered origins hproc made partition rfl
    obtain ⟨o, asked, reports⟩ := reports_of_job origins hproc made
    exact ⟨o, asked, reports partition⟩

/-- The row with the id of a request is the row of the request. -/
theorem stored_of_id (run : (services kind sha256 uuid).Run allowed init s) (fresh : init.Fresh)
    (injective : Function.Injective uuid) {o : Origin} (asked : Asked s o) :
    ∀ r ∈ s.shared.db.rows, r.messageId = o.messageId → o.Stored sha256 r := by
  intro r hr hid
  have origins := traceable run fresh
  obtain ⟨o', published, stored⟩ := origins.rows.rows r hr
  have hid' : r.messageId = o'.messageId := by
    obtain ⟨_, _, _, _, rfl⟩ := stored
    rfl
  rwa [asked.eq_of_drawn (origins.requested o' published).asked (numbered run injective)
    run.coherent (.inl (hid.symm.trans hid'))]

/-- An id leads to one request. Every log record reports about a request, and whatever else
carries the same message id or the same trace id belongs to that request: the other log
records, the row and the provider calls. -/
theorem ids_correlate (run : (services kind sha256 uuid).Run allowed init s)
    (fresh : init.Fresh) (injective : Function.Injective uuid) :
    ∀ x ∈ s.shared.log, x.topic = "logs" → ∃ o, Asked s o ∧ o.Reports sha256 x ∧
      (∀ y ∈ s.shared.log, y.topic = "logs" →
        (y.value.get? "messageId" = some (.string o.messageId) ∨
          y.value.get? "traceId" = some (.string o.traceId)) → o.Reports sha256 y) ∧
      (∀ r ∈ s.shared.db.rows, r.messageId = o.messageId → o.Stored sha256 r) ∧
      ∀ y ∈ s.shared.inbox, y.message.messageId = o.messageId → o.Sent sha256 y := by
  have coherent := run.coherent
  have unique := numbered run injective
  have origins := traceable run fresh
  have reports := reported run fresh
  intro x hx htopic
  obtain ⟨o, asked, hreports⟩ := reports x hx htopic
  refine ⟨o, asked, hreports, ?_, stored_of_id run fresh injective asked, ?_⟩
  · intro y hy htopic' same
    obtain ⟨o', asked', hreports'⟩ := reports y hy htopic'
    have hsame : o.messageId = o'.messageId ∨ o.traceId = o'.traceId := by
      obtain same | same := same
      · exact .inl (Json.string.inj (Option.some.inj (same.symm.trans hreports'.messageId)))
      · exact .inr (Json.string.inj (Option.some.inj (same.symm.trans hreports'.traceId)))
    rwa [asked.eq_of_drawn asked' unique coherent hsame]
  · intro y hy hid
    obtain ⟨o', published, sent⟩ := origins.inbox y hy
    have hid' : y.message.messageId = o'.messageId := by
      rw [sent.message]
      rfl
    rwa [asked.eq_of_drawn (origins.requested o' published).asked unique coherent
      (.inl (hid.symm.trans hid'))]

end Services

/-- The router and the aggregator report about the same order. -/
theorem ids_correlate_order :
    (∀ x ∈ (orderTried .interface unreachable).shared.log, x.topic = "logs" →
      ∃ o, Asked (orderTried .interface unreachable) o ∧ o.Reports id x ∧
        (∀ y ∈ (orderTried .interface unreachable).shared.log, y.topic = "logs" →
          (y.value.get? "messageId" = some (.string o.messageId) ∨
            y.value.get? "traceId" = some (.string o.traceId)) → o.Reports id y) ∧
        (∀ r ∈ (orderTried .interface unreachable).shared.db.rows,
          r.messageId = o.messageId → o.Stored id r) ∧
        ∀ y ∈ (orderTried .interface unreachable).shared.inbox,
          y.message.messageId = o.messageId → o.Sent id y) ∧
    ((orderTried .interface unreachable).shared.log.filter fun x => x.topic == "logs").map
      (fun x => x.value.stringField "service") = [some "router", some "aggregator"] :=
  ⟨Services.ids_correlate (run_orderTried .interface unreachable) World.fresh_empty
    repr_injective, by decide⟩

end Notification
