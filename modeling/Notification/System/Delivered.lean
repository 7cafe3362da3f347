import Notification.Aggregator.DeliveryCalls
import Notification.System.Handings

/-!
# A delivered message has been taken by its provider

A row is marked as delivered only by a process whose own provider call for that message has
resolved before. So however many deliveries, retries and crashes there are, a delivered row
stands for a message that a provider has taken from the system.
-/

namespace Notification

open Interaction Program

/-- A provider has taken a message with this id. -/
def Taken (messageId : String) (t : Trace Reply JsError) : Prop :=
  ∃ provider recipient body options m result, m.messageId = messageId ∧
    ⟨.send provider recipient body options m, .ok result⟩ ∈ t

theorem Taken.mono {messageId : String} {t t' : Trace Reply JsError} (h : Taken messageId t)
    (subset : ∀ ev ∈ t, ev ∈ t') : Taken messageId t' := by
  obtain ⟨provider, recipient, body, options, m, result, hid, member⟩ := h
  exact ⟨provider, recipient, body, options, m, result, hid, subset _ member⟩

/-- A mark as delivered. -/
def MarksDelivered (messageId : String) : Call → Prop
  | .repository (.updateStatus messageId' _ true _) => messageId' = messageId
  | _ => False

/-- What is marked as delivered has been taken before. -/
def Earned (t : Trace Reply JsError) : Prop :=
  Always (fun ev before => ∀ messageId, MarksDelivered messageId ev.call →
    Taken messageId before) t

section Deliveries

variable {m : MessageToDeliver} {provider : IProvider} {t : Trace Reply JsError} {α : Type}

/-- Marks nothing as delivered. -/
def Unmarking (ev : CallEvent) : Prop := ∀ messageId, ¬ MarksDelivered messageId ev.call

theorem Earned.cons {ev : CallEvent} (h : Earned t) (unmarking : Unmarking ev) :
    Earned (ev :: t) :=
  ⟨fun messageId marks => absurd marks (unmarking messageId), h⟩

theorem Earned.wp {p : Prog α} (before : Earned t) (h : p.Makes Unmarking) :
    p.wp (recording Refuses) Earned (fun _ t' => Earned t') t :=
  h.wp (fun _ _ unmarking earned => earned.cons unmarking) before

namespace DeliveryProcessorService

theorem unmarking_alreadyDelivered : (alreadyDelivered interfaceRepository m).Makes Unmarking := by
  refine Makes.bind (Makes.tryCatch ?_ fun _ => trivial) fun isNew => Makes.ite trivial ?_
  · refine Makes.bind (makes_call fun _ _ h => h.elim) fun _ => Makes.ite trivial ?_
    exact Makes.bind (makes_call fun _ _ h => h.elim) fun _ => trivial
  · exact Makes.bind (makes_call fun _ _ h => h.elim) fun _ => trivial

theorem unmarking_handleFailure (e : JsError) :
    (handleFailure interfaceRepository m (m.attempt + 1) e).Makes Unmarking := by
  refine Makes.bind (makes_call fun _ _ h => h.elim) fun _ => Makes.ite ?_ ?_
  · apply (calls_handleMaxAttemptsReached m (m.attempt + 1) _).mono
    rintro ⟨call, answer⟩ made messageId marks
    cases made <;> cases marks
  · apply (calls_handleRetry m (m.attempt + 1) _).mono
    rintro ⟨call, answer⟩ made messageId marks
    cases made <;> cases marks

/-- Once the provider has taken the message it may be marked. -/
theorem earned_recordSuccess (result : ProviderResult) (before : Earned t)
    (taken : Taken m.messageId t) :
    (recordSuccess interfaceRepository m (m.attempt + 1) result).wp (recording Refuses) Earned
      (fun _ t' => Earned t') t := by
  rw [recordSuccess, wp_bind, InterfaceRepository.wp_updateStatus]
  intro r _
  have marked : Earned (⟨.repository (.updateStatus m.messageId .sent true (m.attempt + 1)), r⟩ ::
      t) := ⟨fun messageId marks => marks ▸ taken, before⟩
  refine ⟨marked, ?_⟩
  cases r with
  | error e => exact marked
  | ok _ =>
      apply marked.wp
      apply Makes.bind (makes_call fun _ _ h => h.elim)
      intro _
      apply Makes.bind (makes_call fun _ _ h => h.elim)
      intro _
      refine Makes.bind (Makes.tryCatch (makes_call fun _ _ h => h.elim) fun _ => trivial)
        fun _ => ?_
      exact makes_call fun _ _ h => h.elim

theorem earned_processDelivery_interface (before : Earned t) :
    (processDelivery interfaceRepository provider m).wp (recording Refuses) Earned
      (fun _ t' => Earned t') t := by
  rw [processDelivery, wp_tryCatch, deliver, wp_bind]
  have handles (e : JsError) {t' : Trace Reply JsError} (h : Earned t') :
      (handleFailure interfaceRepository m (m.attempt + 1) e).wp (recording Refuses) Earned
        (fun _ t'' => Earned t'') t' := h.wp (unmarking_handleFailure e)
  apply mono_post (before.wp unmarking_alreadyDelivered)
  intro o t' h
  cases o with
  | error e => exact handles e h
  | ok delivered =>
      rw [either_ok, wp_ite]
      refine ⟨fun _ => h, fun _ => ?_⟩
      rw [wp_bind, IProvider.wp_send]
      intro r _
      have sent : Earned (⟨.send provider.name m.recipient m.body
          (sendOptions m (m.attempt + 1)) m, r⟩ :: t') := h.cons fun _ marks => marks.elim
      refine ⟨sent, ?_⟩
      cases r with
      | error e => exact handles e sent
      | ok result =>
          rw [either_ok, wp_bind]
          have taken : Taken m.messageId (⟨.send provider.name m.recipient m.body
              (sendOptions m (m.attempt + 1)) m, .ok result⟩ :: t') :=
            ⟨_, _, _, _, m, result, rfl, List.mem_cons_self⟩
          apply mono_post (earned_recordSuccess result sent taken)
          intro o t'' earned
          cases o with
          | error e => exact handles e earned
          | ok _ => exact earned

end DeliveryProcessorService

/-- A delivery marks its message only after its provider has taken it. -/
theorem earned_processDelivery (kind : RepositoryKind) (before : Earned t) :
    (DeliveryProcessorService.processDelivery kind.repository provider m).wp (recording Refuses)
      Earned (fun _ t' => Earned t') t := by
  cases kind with
  | interface => exact DeliveryProcessorService.earned_processDelivery_interface before
  | statements =>
      refine (RepositoryKind.wp_processDelivery .statements provider m).always_after ?_ before
      rintro ⟨call, answer⟩ _ made messageId marks
      cases made <;> cases marks

end Deliveries

namespace Services

variable {kind : RepositoryKind} {sha256 : String → String} {uuid : ℕ → String} {init : World}
  {allowed : Services → Action Reply JsError ServiceJob → Prop} {s s' : Services}
  {a : Action Reply JsError ServiceJob}

theorem earned_code (job : ServiceJob) :
    (job.code kind sha256).wp (recording Honest) Earned (fun _ _ => True) [] := by
  have unmarked {t : Trace Reply JsError} {job : ServiceJob} (hjob : ∀ b, job ≠ .batch b)
      (h : Always (JobCall kind sha256 job) t) : Earned t := by
    induction t with
    | nil => trivial
    | cons ev t ih =>
        refine Earned.cons (ih h.2) fun messageId marks => ?_
        obtain ⟨call, answer⟩ := ev
        obtain ⟨made, -⟩ := h
        cases job with
        | batch b => exact hjob b rfl
        | request r => cases made <;> cases marks
        | poll => cases made <;> cases marks
  cases job with
  | batch b =>
      have loop : Worker.Delivers kind b Earned fun _ => Earned := by
        constructor
        case holds => exact fun _ _ h => h
        case prepares =>
          intro _ ev t made h
          refine h.cons fun messageId marks => ?_
          obtain ⟨call, answer⟩ := ev
          cases made <;> cases marks
        case skips => exact fun _ _ _ h => h
        case delivers => exact fun e _ t provider _ _ _ h => earned_processDelivery kind h
      rw [ServiceJob.code, wp_bind]
      apply mono_post ((loop.eachBatch (always_nil _)).restrict fun _ (h : Honest _) => h.refuses)
      intro o t _
      cases o <;> trivial
  | request r =>
      exact mono_wp (calls_code (.request r)) (fun t h => unmarked (by simp) h) fun _ _ _ => trivial
  | poll => exact mono_wp (calls_code .poll) (fun t h => unmarked (by simp) h) fun _ _ _ => trivial

/-- A provider has taken a message with this id, at some time before. -/
def TakenIn (s : Services) (messageId : String) : Prop := Taken messageId (s.history.map Prod.snd)

/-- A mark of a process is earned by the history. -/
theorem taken_of_turn (run : (services kind sha256 uuid).Run allowed init s) {pid : ℕ}
    {ev : CallEvent} (step : (services kind sha256 uuid).Step s (.turn pid ev) s')
    (permitted : allowed s (.turn pid ev)) {messageId : String}
    (marks : MarksDelivered messageId ev.call) : TakenIn s messageId := by
  have run' : (services kind sha256 uuid).Run allowed init s' := .next run step permitted
  cases step with
  | @turn _ proc c next r shared hproc hcrashed hrest answer =>
      have hproc' : (s.advance pid proc ⟨c, r⟩ (next r) shared).procs[pid]? =
          some { proc with rest := next r, trace := ⟨c, r⟩ :: proc.trace } := by
        rw [Machine.getElem?_advance hproc, if_pos rfl]
      have earned := (run'.local_invariant (fun _ _ _ _ => honest_of_answers) hproc'
        (earned_code proc.job) (always_nil _)).1
      apply (earned.1 messageId marks).mono
      intro ev' member
      rw [← run.coherent.traces pid proc hproc] at member
      exact List.mem_map_of_mem (mem_own.mp member)

/-- Rows that a job inserts are not delivered, and it marks nothing else as delivered. -/
theorem keepsRows_of_job {P : String → Prop} {job : ServiceJob} {ev : CallEvent}
    {before : Trace Reply JsError} (made : JobCall kind sha256 job ev before)
    (marks : ∀ messageId, MarksDelivered messageId ev.call → P messageId)
    (accepted : ∀ statement, ev.call = .sql (.execute statement) → statement.check = none) :
    KeepsRows (fun r => r.finalDelivered = true → P r.messageId) ev.call := by
  have updated (messageId : String) (status : Status) (finalDelivered : Bool) (attempts : Int)
      (h : finalDelivered = true → P messageId) (r : MessageRow)
      (hr : r.finalDelivered = true → P r.messageId) :
      (r.updated messageId status finalDelivered attempts).finalDelivered = true →
        P (r.updated messageId status finalDelivered attempts).messageId := by
    unfold MessageRow.updated
    split
    · next hid => exact hid ▸ h
    · exact hr
  obtain ⟨call, answer⟩ := ev
  cases job with
  | request r => cases made <;> trivial
  | poll => cases made <;> trivial
  | batch b =>
      cases made with
      | prepare c prepares =>
          cases prepares with
          | control c h =>
              cases c with
              | execute statement => exact absurd rfl (h statement)
              | _ => trivial
          | insert e member =>
              obtain ⟨columns, values, hinsert, hrow⟩ :=
                BatchIdempotencyService.insertMessage_eq e.toCheck
              change KeepsRows _ (.sql (.execute (BatchIdempotencyService.insertMessage e.toCheck)))
              rw [hinsert]
              change (insertedRow columns values).finalDelivered = true → _
              rw [hrow]
              exact fun h => Bool.noConfusion h
          | _ => trivial
      | deliver e provider c member wellFormed hprovider delivers =>
          cases kind with
          | statements =>
              cases delivers with
              | refused statement refused => exact absurd (accepted statement rfl) refused
              | _ => trivial
          | interface =>
              cases delivers with
              | sent => exact updated _ _ _ _ fun _ => marks _ rfl
              | pending _ => exact updated _ _ _ _ fun h => absurd h (by decide)
              | exhausted _ => exact updated _ _ _ _ fun h => absurd h (by decide)
              | _ => trivial

theorem taken_of_delivered (run : (services kind sha256 uuid).Run allowed init s)
    (fresh : init.Fresh) :
    s.shared.db.Holds fun r => r.finalDelivered = true → TakenIn s r.messageId := by
  apply run.invariant
  · have none {r : MessageRow} (hr : r ∈ init.db.rows) : False :=
      List.not_mem_nil (fresh.rows ▸ hr)
    exact ⟨fun r hr => (none hr).elim, fun r hr => (none hr).elim⟩
  · intro s a s' before h step permitted
    have later {messageId : String} (taken : TakenIn s messageId) : TakenIn s' messageId := by
      apply taken.mono
      intro ev member
      obtain ⟨x, hx, rfl⟩ := List.mem_map.mp member
      refine List.mem_map_of_mem ?_
      cases step with
      | turn => exact List.mem_cons_of_mem _ hx
      | _ => exact hx
    have h' : s.shared.db.Holds fun r => r.finalDelivered = true → TakenIn s' r.messageId :=
      h.mono fun r hr delivered => later (hr delivered)
    obtain hsame | ⟨pid, ev, rfl⟩ | background := shared_cases step
    · exact hsame ▸ h'
    · obtain ⟨proc, hproc, answer, made⟩ := turn_makes before step permitted
      obtain hsame | ⟨r, answer⟩ := effect_of_lossy answer
      · exact hsame ▸ h'
      · refine holds_of_up answer (fun accepted => ?_) h'
        exact keepsRows_of_job made
          (fun messageId marks => later (taken_of_turn before step permitted marks)) accepted
    · exact holds_of_background background h'

/-- A delivered row has its provider call in the inbox. -/
theorem inbox_of_delivered (run : (services kind sha256 uuid).Run allowed init s)
    (fresh : init.Fresh) (injective : Function.Injective uuid) {r : MessageRow}
    (hr : r ∈ s.shared.db.rows) (delivered : r.finalDelivered = true) :
    ∃ o, Requested s o ∧ o.Stored sha256 r ∧
      ∃ x ∈ s.shared.inbox, o.Sent sha256 x ∧ ∃ result, x.outcome = .ok result := by
  have origins := traceable run fresh
  obtain ⟨o, published, stored⟩ := origins.rows.rows r hr
  obtain ⟨provider, recipient, body, options, m, result, hid, member⟩ :=
    (taken_of_delivered run fresh).rows r hr delivered
  have received : ⟨provider, recipient, body, options, m, .ok result⟩ ∈ s.shared.inbox := by
    rw [inbox_eq run fresh]
    exact List.mem_filterMap.mpr ⟨_, List.mem_reverse.mpr member, rfl⟩
  obtain ⟨o', published', sent⟩ := origins.inbox _ received
  have hrow : r.messageId = o.messageId := by
    obtain ⟨_, _, _, _, rfl⟩ := stored
    rfl
  have hmessage : m.messageId = o'.messageId := congrArg MessageToDeliver.messageId sent.message
  have same : o = o' := (origins.requested o published).asked.eq_of_drawn
    (origins.requested o' published').asked (numbered run injective) run.coherent
    (.inl (hrow.symm.trans (hid.symm.trans hmessage)))
  subst same
  exact ⟨o, origins.requested o published, stored, _, received, sent, result, rfl⟩

/-- What is marked as delivered has been delivered: the provider of the request's channel has
been handed the request's recipient and body and has taken them, whatever else happened. -/
theorem delivered_was_taken (run : (services kind sha256 uuid).Run allowed init s)
    (fresh : init.Fresh) (injective : Function.Injective uuid) :
    ∀ r ∈ s.shared.db.rows, r.finalDelivered = true →
      ∃ o, Requested s o ∧ o.Stored sha256 r ∧
        ∃ x ∈ s.shared.inbox, o.Sent sha256 x ∧ ∃ result, x.outcome = .ok result :=
  fun _ hr delivered => inbox_of_delivered run fresh injective hr delivered

end Services

theorem delivered_was_taken_order :
    (∀ r ∈ (orderTried .interface (.ok ⟨true, none⟩)).shared.db.rows, r.finalDelivered = true →
      ∃ o, Requested (orderTried .interface (.ok ⟨true, none⟩)) o ∧ o.Stored id r ∧
        ∃ x ∈ (orderTried .interface (.ok ⟨true, none⟩)).shared.inbox, o.Sent id x ∧
          ∃ result, x.outcome = .ok result) ∧
    (orderTried .interface (.ok ⟨true, none⟩)).shared.db.rows.map MessageRow.finalDelivered =
      [true] :=
  ⟨Services.delivered_was_taken (run_orderTried .interface (.ok ⟨true, none⟩)) World.fresh_empty
    repr_injective, by decide⟩

end Notification
