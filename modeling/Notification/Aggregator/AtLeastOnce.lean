import Notification.Aggregator.ConsumerGroup
import Notification.Aggregator.Schema

/-!
# At least one attempt under crashes

A worker may crash between any two of its calls; MySQL then rolls its transaction back, and
the events from the committed offset on are delivered again. The bulk duplicate check does
not look at the status of the rows it finds. So a row that a worker has inserted and not
sent yet hides its event from every later worker, and the offset gets committed. As long as
no check meets such a row, and no malformed event spoils a batch, every committed
well-formed event has been sent.
-/

namespace Notification

open Interaction Program

namespace Consuming

/-- What MySQL does when the worker that has connection `pid` crashes. -/
def lost (pid : ℕ) (w w' : World) : Prop := w' = { w with db := w.db.rollback pid }

/-- Workers that may crash in a world without failures. -/
def crashing (uuid : ℕ → String) : Machine Reply JsError Unit WorkerJob World :=
  consumers (World.up uuid) lost

/-- A provider call has been made for the pair. -/
def sentPair (w : World) (pair : String × String) : Bool :=
  w.inbox.any fun x => x.message.pair == pair

/-- Every committed well-formed event has been sent at least once. -/
def AtLeastOnce (w : World) : Prop :=
  ∀ topic ∈ topics, ∀ partition offset value e, (w.events topic partition)[offset]? = some value →
    parseEvent value = .ok e → e.WellFormed → offset < w.committed topic partition →
      sentPair w e.asMessage.pair = true

/-- A worker is only handed batches that the group can cope with, and the duplicate check
finds no row that is `IN_PROGRESS` without a provider call. -/
def attended (s : Workers) : Action Reply JsError WorkerJob → Bool
  | .start (.batch b) => admits s b
  | .turn _ ev =>
    (answeredRows ev).all fun r => r.status != .inProgress || sentPair s.shared r.pair
  | _ => true

/-- Why an attended run attempts every event. -/
structure Attended (s : Workers) : Prop where
  inOrder : InOrder (fun w e => sentPair w e.asMessage.pair = true) s
  /-- Rows belong to events, and a row that has left `IN_PROGRESS` has been sent. -/
  rows : ∀ r ∈ s.shared.db.rows,
    (∃ e ∈ handed s, e.WellFormed ∧ r.ident = e.asMessage.ident) ∧
    (r.status ≠ .inProgress ∨ r.finalDelivered = true → sentPair s.shared r.pair = true)
  /-- What the duplicate checks have found has been sent. -/
  found : ∀ P ∈ s.procs, ∀ ev ∈ P.trace, ∀ r ∈ answeredRows ev,
    sentPair s.shared r.pair = true ∧ ∃ e ∈ entries P.job.toBatch,
      e.tenantId = some r.tenantId ∧ e.effectiveKey = some r.idempotencyKey
  hit : ∀ P ∈ s.procs, ∀ messageId, P.trace.any (hits messageId) = true →
    ∃ e ∈ handed s, e.WellFormed ∧ e.asMessage.messageId = messageId ∧
      sentPair s.shared e.asMessage.pair = true
  sent : ∀ P ∈ s.procs, ∀ m, P.trace.any (sends m) = true → sentPair s.shared m.pair = true

section Events

variable {uuid : ℕ → String} {pid : ℕ} {w w' : World} {ev : CallEvent} {m : MessageToDeliver}
  {messageId : String} {e : ParsedKafkaMessage} {columns : List String} {values : List Expr}

theorem sentPair_mono (h : w.inbox <+: w'.inbox) {pair : String × String}
    (hsent : sentPair w pair = true) : sentPair w' pair = true := by
  obtain ⟨rest, heq⟩ := h
  rw [sentPair, ← heq, List.any_append, Bool.or_eq_true]
  exact .inl hsent

theorem sentPair_of_sends (answer : w.up uuid pid ev w') (h : sends m ev = true) :
    sentPair w' m.pair = true := by
  obtain ⟨choice, answer⟩ := answer
  unfold sends at h
  split at h
  · cases answer
    rw [beq_iff_eq] at h
    simp [sentPair, h]
  · cases h

/-- A status check that finds a message delivered has found its row. -/
theorem row_of_hits (answer : w.up uuid pid ev w') (h : hits messageId ev = true) :
    ∃ r ∈ w.db.messages, r.messageId = messageId ∧ r.finalDelivered = true := by
  obtain ⟨choice, answer⟩ := answer
  unfold hits at h
  split at h
  · next messageId' status =>
      cases answer
      rw [Bool.and_eq_true, beq_iff_eq] at h
      obtain ⟨rfl, h⟩ := h
      cases hrow : w.db.messages.find? fun r => r.messageId == messageId' with
      | none =>
          rw [Database.getStatus, hrow] at h
          cases h
      | some r =>
          rw [Database.getStatus, hrow] at h
          exact ⟨r, List.mem_of_find?_eq_some hrow, by simpa using List.find?_some hrow, h⟩
  · cases h

/-- An inserted row starts as `IN_PROGRESS`. -/
theorem status_of_insert (h : Statement.insert .messages columns values =
      BatchIdempotencyService.insertMessage e.toCheck) :
    (insertedRow columns values).status = .inProgress ∧
      (insertedRow columns values).finalDelivered = false := by
  cases h
  exact ⟨rfl, rfl⟩

/-- An accepted row belongs to a well-formed event. -/
theorem event_of_insert {r : Except JsError Unit}
    (tolerable : Tolerable ⟨.sql (.execute (.insert .messages columns values)), r⟩)
    (haccepted : accepted r = true) (h : Statement.insert .messages columns values =
      BatchIdempotencyService.insertMessage e.toCheck) :
    e.WellFormed ∧ (insertedRow columns values).ident = e.asMessage.ident := by
  have hcheck : accepted r = (Statement.insert .messages columns values).check.isNone :=
    beq_iff_eq.mp tolerable
  have hwell : e.WellFormed := by
    rw [ParsedKafkaMessage.WellFormed, ← h, ← Option.isNone_iff_eq_none, ← hcheck, haccepted]
  obtain ⟨columns', values', heq, hident, -⟩ := ident_of_wellFormed hwell
  rw [← h] at heq
  cases heq
  exact ⟨hwell, hident⟩

end Events

section Runs

variable {uuid : ℕ → String} {s s' : Workers} {pid : ℕ} {P : WorkerProc}
  {a : Action Reply JsError WorkerJob}

/-- A step that adds nothing to a trace and no row. -/
theorem Attended.keep (h : Attended s)
    (inOrder : InOrder (fun w e => sentPair w e.asMessage.pair = true) s')
    (inbox : s.shared.inbox <+: s'.shared.inbox)
    (rows : ∀ r ∈ s'.shared.db.rows, r ∈ s.shared.db.rows)
    (handed : ∀ e ∈ handed s, e ∈ handed s')
    (procs : ∀ P' ∈ s'.procs, P'.trace = [] ∨ ∃ P ∈ s.procs, P.job = P'.job ∧ P.trace = P'.trace) :
    Attended s' := by
  have sent {pair : String × String} (hsent : sentPair s.shared pair = true) :
      sentPair s'.shared pair = true := sentPair_mono inbox hsent
  refine ⟨inOrder, fun r hr => ?_, fun P' hP' ev hev r hr => ?_, fun P' hP' messageId hhit => ?_,
    fun P' hP' m hsends => ?_⟩
  · obtain ⟨⟨e, he, hwell, hident⟩, hstatus⟩ := h.rows r (rows r hr)
    exact ⟨⟨e, handed e he, hwell, hident⟩, fun hleft => sent (hstatus hleft)⟩
  · obtain hnil | ⟨P, hP, hjob, htrace⟩ := procs P' hP'
    · rw [hnil] at hev
      cases hev
    · obtain ⟨hsent, hasked⟩ := h.found P hP ev (htrace ▸ hev) r hr
      exact ⟨sent hsent, hjob ▸ hasked⟩
  · obtain hnil | ⟨P, hP, -, htrace⟩ := procs P' hP'
    · rw [hnil] at hhit
      cases hhit
    · obtain ⟨e, he, hwell, hid, hsent⟩ := h.hit P hP messageId (htrace ▸ hhit)
      exact ⟨e, handed e he, hwell, hid, sent hsent⟩
  · obtain hnil | ⟨P, hP, -, htrace⟩ := procs P' hP'
    · rw [hnil] at hsends
      cases hsends
    · exact sent (h.sent P hP m (htrace ▸ hsends))

section Step

variable {ev : CallEvent} {shared : World} {rest : Prog Unit} {r : MessageRow}

/-- A message whose delivery has been tried has been sent. -/
theorem Attended.sent_of_tried (h : Attended s) (hP : P ∈ s.procs) {m : MessageToDeliver}
    (read : ∀ messageId, P.trace.any (unread messageId) = false) (tried : Tried m P.trace) :
    sentPair s.shared m.pair = true := by
  cases tried with
  | inl hsends => exact h.sent P hP m hsends
  | inr hunread =>
      rw [read] at hunread
      cases hunread

/-- Rows after a call: an update comes after the provider call, and a new row is
`IN_PROGRESS`. -/
theorem Attended.rows_turn (h : Attended s) (hP : P ∈ s.procs)
    (answer : s.shared.up uuid pid ev shared) (may : MayConsume P.job.toBatch ev P.trace)
    (read : ∀ messageId, P.trace.any (unread messageId) = false) (hr : r ∈ shared.db.rows) :
    (∃ e ∈ handed s, e.WellFormed ∧ r.ident = e.asMessage.ident) ∧
      (r.status ≠ .inProgress ∨ r.finalDelivered = true → sentPair shared r.pair = true) := by
  have sent {pair : String × String} (hsent : sentPair s.shared pair = true) :
      sentPair shared pair = true := sentPair_mono (World.grows_of_up answer).inbox hsent
  obtain hold | ⟨messageId, status, finalDelivered, attempts, rfl, hupdated⟩ |
    ⟨columns, values, rfl, hnew, -⟩ := (rowStep_of_up answer may.noUpdate).rows_cases
  · obtain ⟨hevent, hstatus⟩ := h.rows r (hold r hr)
    exact ⟨hevent, fun hleft => sent (hstatus hleft)⟩
  · obtain ⟨r₀, hr₀, rfl⟩ := hupdated r hr
    obtain ⟨⟨e, he, hwell, hident⟩, hstatus⟩ := h.rows r₀ hr₀
    refine ⟨⟨e, he, hwell, by rw [MessageRow.ident_updated, hident]⟩, fun hleft => ?_⟩
    by_cases hid : r₀.messageId = messageId
    · -- the row of the message that has been tried, found by its id, has the message's pair
      obtain ⟨m, rfl, ready, tried⟩ := may
      obtain ⟨e', he', hwell', rfl, -⟩ := ready.entry
      simp only [MessageRow.ident, MessageToDeliver.ident, Prod.mk.injEq] at hident
      have same := h.inOrder.identified e he e' (mem_handed.mpr ⟨P, hP, he'⟩)
      have hpair := same.pair hwell hwell' (hident.1.symm.trans hid)
      have hrow : (r₀.updated e'.asMessage.messageId status finalDelivered attempts).pair =
          r₀.pair := congrArg (fun i => i.2.1) (MessageRow.ident_updated ..)
      rw [hrow, hident.2.1, hpair]
      exact sent (h.sent_of_tried hP read tried)
    · rw [MessageRow.updated_of_ne hid] at hleft ⊢
      exact sent (hstatus hleft)
  · obtain hr | rfl := hnew r hr
    · obtain ⟨hevent, hstatus⟩ := h.rows r hr
      exact ⟨hevent, fun hleft => sent (hstatus hleft)⟩
    · obtain ⟨⟨e, he, -, heq⟩, -⟩ := may
      obtain ⟨hwell, hident⟩ := event_of_insert (tolerable_of_up answer) rfl heq
      obtain ⟨hstatus, hfinal⟩ := status_of_insert heq
      refine ⟨⟨e, mem_handed.mpr ⟨P, hP, he⟩, hwell, hident⟩, fun hleft => ?_⟩
      rw [hstatus, hfinal] at hleft
      exact absurd hleft (by decide)

theorem Attended.turn (h : Attended s) (hP : s.procs[pid]? = some P)
    (answer : s.shared.up uuid pid ev shared) (may : MayConsume P.job.toBatch ev P.trace)
    (read : ∀ messageId, P.trace.any (unread messageId) = false)
    (permitted : attended s (.turn pid ev) = true) :
    Attended (s.advance pid P ev rest shared) := by
  have grows := World.grows_of_up answer
  have member := List.mem_of_getElem? hP
  have sent {pair : String × String} (hsent : sentPair s.shared pair = true) :
      sentPair shared pair = true := sentPair_mono grows.inbox hsent
  have stays {e : ParsedKafkaMessage} (he : e ∈ handed s) :
      e ∈ handed (s.advance pid P ev rest shared) := by
    obtain ⟨Q, hQ, he⟩ := mem_handed.mp he
    obtain ⟨q, hQ⟩ := List.mem_iff_getElem?.mp hQ
    by_cases hq : q = pid
    · subst hq
      cases hP.symm.trans hQ
      exact mem_handed.mpr ⟨_, List.mem_of_getElem?
        ((Machine.getElem?_advance hP).trans (if_pos rfl)), he⟩
    · exact mem_handed.mpr ⟨Q, List.mem_of_getElem?
        ((Machine.getElem?_advance hP).trans ((if_neg hq).trans hQ)), he⟩
  refine ⟨h.inOrder.keep grows.log grows.committed (fun P' hP' => ?_) fun e he => sent he,
    fun r hr => ?_, fun P' hP' ev' hev r hr => ?_, fun P' hP' messageId hhit => ?_,
    fun P' hP' m hsends => ?_⟩
  · obtain hP' | rfl := Pool.mem_advance hP'
    · exact ⟨P', hP', rfl⟩
    · exact ⟨P, member, rfl⟩
  · obtain ⟨⟨e, he, hwell, hident⟩, hstatus⟩ := h.rows_turn member answer may read hr
    exact ⟨⟨e, stays he, hwell, hident⟩, hstatus⟩
  · have old {Q : WorkerProc} (hQ : Q ∈ s.procs) (hev : ev' ∈ Q.trace) :
        sentPair shared r.pair = true ∧ ∃ e ∈ entries Q.job.toBatch,
          e.tenantId = some r.tenantId ∧ e.effectiveKey = some r.idempotencyKey :=
      (h.found Q hQ ev' hev r hr).imp_left sent
    obtain hP' | rfl := Pool.mem_advance hP'
    · exact old hP' hev
    · obtain rfl | hev := List.mem_cons.mp hev
      · obtain ⟨hrow, hasked⟩ := asked_of_answered answer may hr
        simp only [attended, List.all_eq_true, Bool.or_eq_true, bne_iff_ne] at permitted
        refine ⟨sent ?_, hasked⟩
        cases permitted r hr with
        | inl hstatus => exact (h.rows r (Database.mem_rows.mpr (.inl hrow))).2 (.inl hstatus)
        | inr hsent => exact hsent
      · exact old (Q := P) member hev
  · have old {Q : WorkerProc} (hQ : Q ∈ s.procs) (hhit : Q.trace.any (hits messageId) = true) :
        ∃ e ∈ handed (s.advance pid P ev rest shared), e.WellFormed ∧
          e.asMessage.messageId = messageId ∧ sentPair shared e.asMessage.pair = true := by
      obtain ⟨e, he, hwell, hid, hsent⟩ := h.hit Q hQ messageId hhit
      exact ⟨e, stays he, hwell, hid, sent hsent⟩
    obtain hP' | rfl := Pool.mem_advance hP'
    · exact old hP' hhit
    · rw [List.any_cons, Bool.or_eq_true] at hhit
      cases hhit with
      | inl hhit =>
          obtain ⟨r, hr, hid, hfinal⟩ := row_of_hits answer hhit
          obtain ⟨⟨e, he, hwell, hident⟩, hstatus⟩ := h.rows r (Database.mem_rows.mpr (.inl hr))
          simp only [MessageRow.ident, MessageToDeliver.ident, Prod.mk.injEq] at hident
          refine ⟨e, stays he, hwell, by rw [← hident.1, hid], ?_⟩
          rw [← hident.2.1]
          exact sent (hstatus (.inr hfinal))
      | inr hhit => exact old member hhit
  · obtain hP' | rfl := Pool.mem_advance hP'
    · exact sent (h.sent P' hP' m hsends)
    · rw [List.any_cons, Bool.or_eq_true] at hsends
      cases hsends with
      | inl hsends => exact sentPair_of_sends answer hsends
      | inr hsends => exact sent (h.sent P member m hsends)

end Step

theorem provider_of_topic {topic : String} (h : topic ∈ topics) :
    ∃ provider, ProviderFactory.getProvider (Worker.channelOf topic) = .ok provider := by
  simp only [topics, List.mem_cons, List.not_mem_nil, or_false] at h
  rcases h with rfl | rfl | rfl <;> exact ⟨_, rfl⟩

/-- A handled event has been sent. -/
theorem Attended.sent_of_handled (h : Attended s) (hP : P ∈ s.procs) {b : Batch}
    (hjob : P.job = .batch b) (wellFormed : ∀ e ∈ entries b, e.WellFormed)
    (read : ∀ messageId, P.trace.any (unread messageId) = false) {e : ParsedKafkaMessage}
    (he : e ∈ entries b) (handled : Handled b e P.trace) :
    sentPair s.shared e.asMessage.pair = true := by
  obtain ⟨-, uniform, -⟩ := h.inOrder.jobs P hP b hjob
  have given {e : ParsedKafkaMessage} (he : e ∈ entries b) : e ∈ handed s :=
    mem_handed.mpr ⟨P, hP, by rw [hjob]; exact he⟩
  obtain ⟨ev, hev, r, hr, e', he', hid, hkey⟩ | ⟨-, -, tried | hhit⟩ := handled
  · -- the row that was found belongs to an event with the joined key of `e'`
    obtain ⟨hsent, e₀, he₀, htenant, hkey₀⟩ := h.found P hP ev hev r hr
    rw [hjob] at he₀
    obtain ⟨hpair, hkey'⟩ := pair_of_asked (wellFormed e₀ he₀) htenant hkey₀
    have hpair' := uniform.2 e₀ he₀ e' he' (wellFormed e₀ he₀) (wellFormed e' he')
      (hkey'.symm.trans hkey)
    have same := h.inOrder.identified e' (given he') e (given he) (wellFormed e' he')
      (wellFormed e he) hid
    rwa [← same, ← hpair', ← hpair]
  · exact h.sent_of_tried hP read tried
  · obtain ⟨e₀, he₀, hwell₀, hid, hsent⟩ := h.hit P hP _ hhit
    have same := (h.inOrder.identified e₀ he₀ e (given he)).pair hwell₀ (wellFormed e he) hid
    rwa [← same]

/-- Before a batch is committed its well-formed events have been sent. -/
theorem Attended.sent_of_done (h : Attended s) (hP : P ∈ s.procs) {b : Batch}
    (hjob : P.job = .batch b) (read : ∀ messageId, P.trace.any (unread messageId) = false)
    (handled : (∃ provider, ProviderFactory.getProvider (Worker.channelOf b.topic) =
      .ok provider) → (∀ e ∈ entries b, e.WellFormed) → ∀ e ∈ entries b, Handled b e P.trace)
    {msg : KafkaMessage} (member : msg ∈ b.messages) {e : ParsedKafkaMessage}
    (hparse : msg.parse = .ok e) (hwell : e.WellFormed) :
    sentPair s.shared e.asMessage.pair = true := by
  obtain ⟨htopic, uniform, -⟩ := h.inOrder.jobs P hP b hjob
  obtain all | none := uniform.1
  · have wellFormed : ∀ e ∈ entries b, e.WellFormed := fun e he => wellFormed_of_mem_entries all he
    have he : e ∈ entries b := (mem_entries all).mpr ⟨msg, member, hparse⟩
    exact h.sent_of_handled hP hjob wellFormed read he
      (handled (provider_of_topic htopic) wellFormed e he)
  · have := none msg member
    simp [KafkaMessage.wellFormed, hparse, hwell] at this

theorem Attended.step {allowed : Workers → Action Reply JsError WorkerJob → Prop} {init : World}
    (h : Attended s) (run : (crashing uuid).Run allowed init s)
    (step : (crashing uuid).Step s a s') (ok : allowed s a) (permitted : attended s a = true) :
    Attended s' := by
  have read {s : Workers} (run : (crashing uuid).Run allowed init s) {pid : ℕ} {P : WorkerProc}
      (hP : s.procs[pid]? = some P) (messageId : String) :
      P.trace.any (unread messageId) = false := by
    apply List.any_eq_false.mpr
    intro ev hev hunread
    have succeeds := run.answered (fun _ _ _ _ => World.up_succeeds) pid P hP ev hev
    unfold unread at hunread
    split at hunread
    · obtain ⟨a, ha⟩ := succeeds
      cases ha
    · cases hunread
  have handed : ∀ e ∈ handed s, e ∈ Consuming.handed s' := fun e => handed_step step
  cases step with
  | @start job hstart =>
      refine h.keep (h.inOrder.start (fun b hb => ?_) fun b hb => ?_) (List.prefix_refl _)
        (fun _ => id) handed fun P' hP' => ?_
      · subst hb
        exact hstart
      · subst hb
        exact permitted
      · cases List.mem_append.mp hP' with
        | inl hP' => exact .inr ⟨P', hP', rfl, rfl⟩
        | inr hP' =>
            rw [List.mem_singleton.mp hP']
            exact .inl rfl
  | turn hP hcrashed hrest answer =>
      have next := run.next (.turn hP hcrashed hrest answer) ok
      have may := (next.local_invariant (fun _ _ _ _ => tolerable_of_up)
        ((Machine.getElem?_advance hP).trans (if_pos rfl)) (wp_code _) trivial).1
      exact h.turn hP answer may.1 (read run hP) permitted
  | @crash pid proc shared hP hcrash =>
      obtain rfl : shared = { s.shared with db := s.shared.db.rollback pid } := hcrash
      have procs : ∀ P' ∈ (s.drop pid proc
          { s.shared with db := s.shared.db.rollback pid }).procs,
          ∃ P ∈ s.procs, P.job = P'.job ∧ P.trace = P'.trace := by
        intro P' hP'
        obtain hP' | rfl := Pool.mem_drop hP'
        · exact ⟨P', hP', rfl, rfl⟩
        · exact ⟨proc, List.mem_of_getElem? hP, rfl, rfl⟩
      refine h.keep (h.inOrder.keep (List.prefix_refl _) rfl (fun P' hP' => ?_) fun _ => id)
        (List.prefix_refl _) (fun r hr => ?_) handed fun P' hP' => .inr (procs P' hP')
      · obtain ⟨P, hP, hjob, -⟩ := procs P' hP'
        exact ⟨P, hP, hjob⟩
      · obtain hr | ⟨conn, hr⟩ := Database.mem_rows.mp hr
        · exact Database.mem_rows.mpr (.inl hr)
        · exact Database.mem_rows.mpr (.inr ⟨conn, (List.mem_filter.mp hr).1⟩)
  | @settle pid proc outcome shared hP hcrashed hrest hsettle =>
      have member := List.mem_of_getElem? hP
      obtain ⟨b, hjob, rfl⟩ : ∃ b, proc.job = .batch b ∧ shared = s.shared.commit b := by
        cases hjob : proc.job with
        | batch b =>
            rw [hjob] at hsettle
            exact ⟨b, rfl, hsettle⟩
        | poll =>
            rw [hjob] at hsettle
            exact hsettle.elim
      have same : (s.shared.commit b).db = s.shared.db ∧
          (s.shared.commit b).inbox = s.shared.inbox := by
        unfold World.commit
        split <;> exact ⟨rfl, rfl⟩
      have inbox : s.shared.inbox <+: (s.shared.commit b).inbox :=
        same.2.symm ▸ List.prefix_refl _
      have handled := (run.local_invariant (fun _ _ _ _ => tolerable_of_up) hP
        (wp_code _) trivial).2 outcome hrest
      rw [hjob] at handled
      refine h.keep (h.inOrder.settle member hjob (fun msg hmsg e hparse hwell =>
        h.sent_of_done member hjob (read run hP) handled hmsg hparse hwell)
        fun e hsent => sentPair_mono inbox hsent) inbox (fun r hr => ?_) handed
        fun P' hP' => .inr ⟨P', hP', rfl, rfl⟩
      rwa [← same.1]
  | drift hdrift =>
      obtain ⟨t, -, rfl⟩ | ⟨record, rfl⟩ := hdrift
      · exact h.keep (h.inOrder.keep (List.prefix_refl _) rfl (fun P hP => ⟨P, hP, rfl⟩)
          fun _ => id) (List.prefix_refl _) (fun _ => id) handed fun P hP => .inr ⟨P, hP, rfl, rfl⟩
      · exact h.keep (h.inOrder.keep (List.prefix_append _ _) rfl (fun P hP => ⟨P, hP, rfl⟩)
          fun _ => id) (List.prefix_refl _) (fun _ => id) handed fun P hP => .inr ⟨P, hP, rfl, rfl⟩

/-- In every run in which no check meets an unsent row, every committed event has been sent. -/
theorem at_least_once (run : (crashing uuid).Run (fun s a => attended s a = true) {} s) :
    AtLeastOnce s.shared := by
  suffices h : Attended s from fun topic htopic partition offset value e hvalue hparse hwell hlt =>
    (h.inOrder.committed topic htopic partition).holds offset value e hlt hvalue hparse hwell
  refine run.invariant ⟨⟨fun _ _ _ => ⟨Nat.zero_le _, ?_⟩, ?_, ?_⟩, ?_, ?_, ?_, ?_⟩
    fun _ _ _ before h step permitted => h.step before step permitted permitted
  · intro offset value e hlt
    exact absurd hlt (Nat.not_lt_zero _)
  · exact fun P hP => absurd hP List.not_mem_nil
  · exact fun e he => absurd he List.not_mem_nil
  · exact fun r hr => absurd hr List.not_mem_nil
  · exact fun P hP => absurd hP List.not_mem_nil
  · exact fun P hP => absurd hP List.not_mem_nil
  · exact fun P hP => absurd hP List.not_mem_nil

end Runs

/-! ## A crash between the transaction and the provider call -/

section Redelivery

/-- What is done in a scripted run: a record is appended, a worker is handed `n` records
from offset `lo` on, takes turns, crashes, or has its batch committed. -/
inductive Stage where
  | append (record : Record)
  | fetch (topic : String) (partition lo n : ℕ)
  | turns (pid n : ℕ)
  | crash (pid : ℕ)
  | settle (pid : ℕ)

/-- Do it if it is possible and permitted. The provider accepts everything. -/
def Stage.play (permit : Workers → Action Reply JsError WorkerJob → Bool) (s : Workers) :
    Stage → Workers
  | append record =>
    if permit s .drift then { s with shared := { s.shared with log := s.shared.log ++ [record] } }
    else s
  | fetch topic partition lo n =>
    let b : Batch := ⟨topic, partition, s.shared.fetch topic partition lo n⟩
    if topic ∈ topics ∧ b.messages.isEmpty = false ∧ lo ≤ s.shared.committed topic partition ∧
        permit s (.start (.batch b)) = true then
      s.spawn (.batch b) (WorkerJob.code (.batch b))
    else s
  | turns pid n =>
    Machine.turns permit
      (fun c w => w.answer toString pid { outcome := .ok ⟨true, none⟩ } c) pid n s
  | crash pid =>
    match s.procs[pid]? with
    | none => s
    | some P =>
      if permit s (.crash pid) then
        s.drop pid P { s.shared with db := s.shared.db.rollback pid }
      else s
  | settle pid =>
    match s.procs[pid]? with
    | some ⟨.batch b, .done _, _, false⟩ =>
      if permit s (.settle pid) then { s with shared := s.shared.commit b } else s
    | _ => s

/-- A scripted run from the empty world. -/
def play (permit : Workers → Action Reply JsError WorkerJob → Bool) (stages : List Stage) :
    Workers :=
  stages.foldl (Stage.play permit) (Pool.initial {})

theorem run_play (permit : Workers → Action Reply JsError WorkerJob → Bool)
    (stages : List Stage) :
    (crashing toString).Run (fun s a => permit s a = true) {} (play permit stages) := by
  suffices h : ∀ s, (crashing toString).Run (fun s a => permit s a = true) {} s →
      (crashing toString).Run (fun s a => permit s a = true) {}
        (stages.foldl (Stage.play permit) s) from h _ .initial
  induction stages with
  | nil => exact fun s h => h
  | cons stage rest ih =>
      refine fun s h => ih _ ?_
      cases stage with
      | append record =>
          simp only [Stage.play]
          split
          · next hpermit => exact h.next (.drift (Or.inr ⟨record, rfl⟩)) hpermit
          · exact h
      | fetch topic partition lo n =>
          simp only [Stage.play]
          split
          · next hstart =>
              obtain ⟨htopic, hmessages, hlo, hpermit⟩ := hstart
              have nonempty : s.shared.fetch topic partition lo n ≠ [] := by
                simpa using hmessages
              exact h.next (.start ⟨htopic, nonempty, lo, n, hlo, rfl⟩) hpermit
          · exact h
      | turns pid n =>
          exact h.turns (fun _ _ _ _ => World.up_of_answer) (fun _ _ h => h) n
      | crash pid =>
          simp only [Stage.play]
          split
          · exact h
          · next P hP =>
              split
              · next hpermit => exact h.next (.crash hP rfl) hpermit
              · exact h
      | settle pid =>
          simp only [Stage.play]
          split
          · next b outcome trace hP =>
              split
              · next hpermit => exact h.next (.settle hP rfl rfl rfl) hpermit
              · exact h
          · exact h

/-- The record of `sampleMessage`. -/
def sampleRecord : Record := ⟨"messages.sms", 0, none, sampleMessage.event, []⟩

/-- A worker makes `n` calls for the batch with this record and crashes; another one gets
the same batch, and its end is committed. -/
def redelivered (permit : Workers → Action Reply JsError WorkerJob → Bool) (n : ℕ) : Workers :=
  play permit [.append sampleRecord, .fetch "messages.sms" 0 0 1, .turns 0 n, .crash 0,
    .fetch "messages.sms" 0 0 1, .turns 1 25, .settle 1]

theorem sampleRecord_wellFormed :
    ∃ e, parseEvent sampleRecord.value = .ok e ∧ e.WellFormed ∧
      e.asMessage.pair = ("tenant-1", "key-1") :=
  ⟨_, rfl, by decide, rfl⟩

/-- The first worker crashes after its `COMMIT`. The second one finds the row, skips the
message and gets the offset committed. -/
theorem at_least_once_fails :
    (redelivered (fun _ _ => true) 7).shared.committed "messages.sms" 0 = 1 ∧
    (redelivered (fun _ _ => true) 7).shared.inbox.length = 0 ∧
    (redelivered (fun _ _ => true) 7).shared.db.messages.map MessageRow.status = [.inProgress] ∧
    ¬ ∀ s, (crashing toString).Run (fun _ _ => True) {} s → AtLeastOnce s.shared := by
  refine ⟨by decide, by decide, by decide, fun atLeastOnce => ?_⟩
  have h := atLeastOnce _ ((run_play (fun _ _ => true) _).mono fun _ _ _ => trivial :
    (crashing toString).Run _ {} (redelivered (fun _ _ => true) 7))
  obtain ⟨e, hparse, hwell, hpair⟩ := sampleRecord_wellFormed
  have hsent := h "messages.sms" (by decide) 0 0 _ e rfl hparse hwell (by decide)
  rw [hpair] at hsent
  exact absurd hsent (by decide)

/-- The first worker crashes before its `COMMIT`. -/
theorem at_least_once_redelivered :
    (redelivered attended 6).shared.committed "messages.sms" 0 = 1 ∧
    (redelivered attended 6).shared.inbox.map (fun x => x.options.idempotencyToken) = ["m-1"] ∧
    AtLeastOnce (redelivered attended 6).shared :=
  ⟨by decide, by decide, at_least_once (run_play attended _)⟩

end Redelivery

end Consuming

end Notification
