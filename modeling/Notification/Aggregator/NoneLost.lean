import Notification.Aggregator.Accounting

/-!
# Nothing is lost

An unharmed run stays one in which every row says what its owner has learnt, every retry of a
message in work is there, and every message whose owner has come to its end is delivered, in
the DLQ or scheduled.
-/

namespace Notification

open Interaction Program

namespace Consuming

section Step

variable {s : Workers} {pid q : ℕ} {P Q : WorkerProc} {ev : CallEvent} {shared : World}
  {rest : Prog Unit} {messageId : String}

theorem settled_iff {db : Database} : settled db messageId = true ↔
    ∃ r ∈ db.messages, r.messageId = messageId ∧ (r.finalDelivered = true ∨ (r.status = .failed ∧
      (db.dlqEntries.any fun entry => entry.messageId == messageId) = true)) := by
  simp only [settled, List.any_eq_true, Bool.and_eq_true, Bool.or_eq_true, beq_iff_eq]

namespace FaultyTurn

theorem proc_other (turn : FaultyTurn s pid P ev shared) (hQ : s.procs[q]? = some Q)
    (hq : q ≠ pid) : (s.advance pid P ev rest shared).procs[q]? = some Q :=
  (Machine.getElem?_advance turn.proc).trans ((if_neg hq).trans hQ)

theorem proc_own (turn : FaultyTurn s pid P ev shared) :
    (s.advance pid P ev rest shared).procs[pid]? =
      some { P with rest := rest, trace := ev :: P.trace } :=
  (Machine.getElem?_advance turn.proc).trans (if_pos rfl)

theorem proc_cases (turn : FaultyTurn s pid P ev shared)
    (hQ : (s.advance pid P ev rest shared).procs[q]? = some Q) :
    (q ≠ pid ∧ s.procs[q]? = some Q) ∨
      (q = pid ∧ Q = { P with rest := rest, trace := ev :: P.trace }) := by
  rw [Machine.getElem?_advance turn.proc] at hQ
  split at hQ
  · next hq => exact .inr ⟨hq, (Option.some.inj hQ).symm⟩
  · next hq => exact .inl ⟨hq, hQ⟩

theorem ne_of_ended (turn : FaultyTurn s pid P ev shared) (hQ : s.procs[q]? = some Q)
    (hended : ended Q = true) : q ≠ pid := by
  rintro rfl
  cases turn.proc.symm.trans hQ
  rw [turn.unended] at hended
  cases hended

theorem closed (turn : FaultyTurn s pid P ev shared) (h : Closed s messageId) :
    Closed (s.advance pid P ev rest shared) messageId := by
  obtain ⟨Q, hQ, hended, owned⟩ := h
  obtain ⟨q, hQ⟩ := List.mem_iff_getElem?.mp hQ
  exact ⟨Q, List.mem_of_getElem? (turn.proc_other hQ (turn.ne_of_ended hQ hended)), hended, owned⟩

/-- What a worker has inserted, it has inserted after one more call. -/
theorem origin (turn : FaultyTurn s pid P ev shared) {r : MessageRow}
    (hQ : s.procs[q]? = some Q) (origin : Origin Q.trace r) :
    ∃ Q', (s.advance pid P ev rest shared).procs[q]? = some Q' ∧ Origin Q'.trace r := by
  by_cases hq : q = pid
  · subst hq
    cases turn.proc.symm.trans hQ
    exact ⟨_, turn.proc_own, origin.cons ev⟩
  · exact ⟨Q, turn.proc_other hQ hq, origin⟩

theorem messages_turn (turn : FaultyTurn s pid P ev shared) (h : Unharmed s) {r : MessageRow}
    (hr : r ∈ shared.db.messages) :
    ∃ Q ∈ (s.advance pid P ev rest shared).procs, Origin Q.trace r := by
  obtain ⟨done, carriedOut, rows⟩ := turn.rows
  obtain ⟨r₀, hident, hr₀ | hr₀ | ⟨columns, values, rfl, rfl⟩⟩ := rows.origin.1 r hr
  · obtain ⟨Q, hQ, origin⟩ := h.messages r₀ hr₀
    obtain ⟨q, hQ⟩ := List.mem_iff_getElem?.mp hQ
    obtain ⟨Q', hQ', origin⟩ := turn.origin hQ origin
    exact ⟨Q', List.mem_of_getElem? hQ', origin.congr hident⟩
  · obtain ⟨Q, hQ, origin⟩ := h.pending pid r₀ hr₀
    obtain ⟨Q', hQ', origin⟩ := turn.origin hQ origin
    exact ⟨Q', List.mem_of_getElem? hQ', origin.congr hident⟩
  · obtain rfl := carriedOut.insert
    exact ⟨_, List.mem_of_getElem? turn.proc_own, (origin_of_insert columns values).congr hident⟩

theorem pending_turn (turn : FaultyTurn s pid P ev shared) (h : Unharmed s) {r : MessageRow}
    (hr : (q, r) ∈ shared.db.pending) :
    ∃ Q, (s.advance pid P ev rest shared).procs[q]? = some Q ∧ Origin Q.trace r := by
  obtain ⟨done, carriedOut, rows⟩ := turn.rows
  obtain hr | ⟨rfl, columns, values, rfl, rfl⟩ := rows.origin.2 q r hr
  · obtain ⟨Q, hQ, origin⟩ := h.pending q r hr
    exact turn.origin hQ origin
  · obtain rfl := carriedOut.insert
    exact ⟨_, turn.proc_own, origin_of_insert columns values⟩

theorem owned_turn (turn : FaultyTurn s pid P ev shared) (h : Unharmed s)
    (hQ : (s.advance pid P ev rest shared).procs[q]? = some Q)
    (owned : owns messageId Q.trace = true) : Tells shared.db q messageId Q.trace := by
  obtain ⟨hq, hQ⟩ | ⟨rfl, rfl⟩ := turn.proc_cases hQ
  · exact turn.tells_other h hQ hq owned
  · obtain ⟨kept, stored | owned⟩ := owns_cons owned
    · exact turn.tells_new h stored
    · exact turn.tells_own h owned kept

theorem unique_turn (turn : FaultyTurn s pid P ev shared) (h : Unharmed s) {p : ℕ}
    {P' : WorkerProc} (hP' : (s.advance pid P ev rest shared).procs[p]? = some P')
    (hQ : (s.advance pid P ev rest shared).procs[q]? = some Q)
    (owned : owns messageId P'.trace = true) (owned' : owns messageId Q.trace = true) : p = q := by
  -- an `INSERT` meets the row of any other owner
  have other {q : ℕ} {Q : WorkerProc} (hQ : s.procs[q]? = some Q) (hq : q ≠ pid)
      (owned : owns messageId Q.trace = true) (owned' : owns messageId (ev :: P.trace) = true) :
      False := by
    cases (owns_cons owned').2 with
    | inl stored =>
        obtain ⟨r, hr, hid, -⟩ := h.owned q Q messageId hQ owned
        exact turn.free stored (Database.rows_of_visible hr) hid
    | inr owned' => exact hq (h.unique q pid Q P messageId hQ turn.proc owned owned')
  obtain ⟨hp, hold⟩ | ⟨rfl, rfl⟩ := turn.proc_cases hP'
  · obtain ⟨-, hold'⟩ | ⟨rfl, rfl⟩ := turn.proc_cases hQ
    · exact h.unique p q P' Q messageId hold hold' owned owned'
    · exact (other hold hp owned owned').elim
  · obtain ⟨hq, hold'⟩ | ⟨rfl, rfl⟩ := turn.proc_cases hQ
    · exact (other hold' hq owned' owned).elim
    · rfl

theorem skipped_turn (turn : FaultyTurn s pid P ev shared) (h : Unharmed s)
    (hQ : Q ∈ (s.advance pid P ev rest shared).procs)
    {ident : String × (String × String) × String} (hinserts : Q.trace.any (inserts ident) = true)
    (kept : Q.trace.any isRollback = false) : owns ident.1 Q.trace = true := by
  obtain hQ | rfl := Pool.mem_advance hQ
  · exact h.skipped Q hQ ident hinserts kept
  · refine owns_iff.mpr ⟨?_, kept⟩
    rw [List.any_cons, Bool.or_eq_false_iff] at kept
    rw [List.any_cons, Bool.or_eq_true] at hinserts ⊢
    cases hinserts with
    | inl hinserts =>
        unfold inserts at hinserts
        split at hinserts
        · next columns values x =>
            rw [Bool.and_eq_true, beq_iff_eq] at hinserts
            obtain ⟨haccepted, rfl⟩ := hinserts
            cases x with
            | ok a => exact .inl (stores_iff.mpr ⟨columns, values, rfl, rfl⟩)
            | error e =>
                obtain ⟨r, hr, hid⟩ := turn.skipped rfl (by simpa [accepted] using haccepted)
                obtain ⟨Q, hQ, origin⟩ := h.pending pid r hr
                cases turn.proc.symm.trans hQ
                have stored := origin.2
                rw [hid] at stored
                exact .inr stored
        · cases hinserts
    | inr hinserts => exact .inr (owns_iff.mp (h.skipped P turn.member ident hinserts kept.2)).1

theorem learnt_turn (turn : FaultyTurn s pid P ev shared) (h : Unharmed s)
    (hQ : Q ∈ (s.advance pid P ev rest shared).procs)
    (hknown : known messageId Q.trace ≠ (.inProgress, false)) :
    ∃ r ∈ shared.db.messages, r.messageId = messageId := by
  obtain ⟨done, carriedOut, rows⟩ := turn.rows
  have stays {r : MessageRow} (hr : r ∈ s.shared.db.messages) (hid : r.messageId = messageId) :
      ∃ r ∈ shared.db.messages, r.messageId = messageId := by
    obtain ⟨r', hr', hident⟩ := rows.ident hr
    exact ⟨r', hr', (congrArg Prod.fst hident).trans hid⟩
  obtain hQ | rfl := Pool.mem_advance hQ
  · obtain ⟨r, hr, hid⟩ := h.learnt Q hQ messageId hknown
    exact stays hr hid
  · obtain hlearns | ⟨status, finalDelivered, attempts, rfl, -⟩ | ⟨hhit, -⟩ :=
      learns_cases messageId ev (known messageId P.trace)
    · obtain ⟨r, hr, hid⟩ := h.learnt P turn.member messageId
        (ne_of_eq_of_ne hlearns.symm hknown)
      exact stays hr hid
    · obtain ⟨r, hr, rfl, -⟩ := h.owned pid P messageId turn.proc (turn.owner_of_update h rfl)
      obtain rfl | ⟨_, _, _, _, heq, -⟩ := carriedOut
      · exact stays (rows.visible_updated hr).1 rfl
      · cases heq
    · obtain ⟨uuid, answer⟩ := turn.answer
      obtain ⟨r, hr, hid, -⟩ := row_of_found answer hhit
      exact stays hr hid

theorem found_turn (turn : FaultyTurn s pid P ev shared) (h : Unharmed s)
    (hQ : Q ∈ (s.advance pid P ev rest shared).procs) {ev' : CallEvent} (hev : ev' ∈ Q.trace)
    {r : MessageRow} (hr : r ∈ answeredRows ev') :
    Found (s.advance pid P ev rest shared) Q.job.toBatch r := by
  have old {Q : WorkerProc} (hQ : Q ∈ s.procs) (hev : ev' ∈ Q.trace) :
      Found (s.advance pid P ev rest shared) Q.job.toBatch r := by
    obtain ⟨closed, asked, fits⟩ := h.found Q hQ ev' hev r hr
    exact ⟨turn.closed closed, asked, fits⟩
  obtain hQ | rfl := Pool.mem_advance hQ
  · exact old hQ hev
  · obtain rfl | hev := List.mem_cons.mp hev
    · obtain ⟨uuid, answer⟩ := turn.answer
      have isUp : s.shared.up uuid pid ev' shared := by
        unfold answeredRows at hr
        split at hr
        · exact World.up_of_lossy_ok answer.1
        · cases hr
      obtain ⟨hrow, asked⟩ := asked_of_answered isUp turn.may hr
      have finds := turn.finds
      simp only [Consuming.finds, List.all_eq_true, Bool.and_eq_true, turn.proc, Option.all_some]
        at finds
      obtain ⟨rest, fits⟩ := finds r hr
      obtain ⟨Q, hQ, origin⟩ := h.messages r hrow
      have hended : ended Q = true := by
        have := List.all_eq_true.mp rest Q hQ
        rwa [origin.1, Bool.not_true, Bool.or_false] at this
      exact ⟨turn.closed (closed_of_origin h hQ (turn.followed Q hQ) hended origin), asked, fits⟩
    · exact old (Q := P) turn.member hev

/-- Nobody deletes the retry of a message that a worker is still working on. -/
theorem scheduled_turn (turn : FaultyTurn s pid P ev shared) (h : Unharmed s) (hQ : Q ∈ s.procs)
    (unended : ended Q = false) {e : ParsedKafkaMessage} (he : e ∈ entries Q.job.toBatch)
    (hwell : e.WellFormed) {ev' : CallEvent} (hev : ev' ∈ Q.trace)
    (schedules : Schedules e.asMessage.messageId ev') : Retried shared e.asMessage.messageId := by
  obtain ⟨uuid, answer⟩ := turn.answer
  obtain hretried | ⟨key, min, max, n, m, hm, rfl, retry⟩ :=
    (h.scheduled Q hQ unended e he hwell ev' hev schedules).turn answer
  · exact hretried
  · have spent := List.all_eq_true.mp turn.deletes m hm
    have := List.all_eq_true.mp spent e (mem_handed.mpr ⟨Q, hQ, he⟩)
    have isBusy : busy s e.asMessage.messageId = true := by
      refine List.any_eq_true.mpr ⟨Q, hQ, ?_⟩
      rw [unended, Bool.not_false, Bool.true_and]
      exact List.any_eq_true.mpr ⟨e, he, by simp [hwell]⟩
    simp [hwell, retry, isBusy] at this

/-- Nothing leaves the DLQ. -/
theorem stays_buried (turn : FaultyTurn s pid P ev shared)
    (h : (s.shared.db.dlqEntries.any fun entry => entry.messageId == messageId) = true) :
    (shared.db.dlqEntries.any fun entry => entry.messageId == messageId) = true := by
  obtain ⟨uuid, answer⟩ := turn.answer
  obtain ⟨more, hmore⟩ := World.dlq_of_lossy answer.1
  rw [← hmore, List.any_append, h, Bool.true_or]

theorem buried_turn (turn : FaultyTurn s pid P ev shared) (h : Unharmed s)
    (hQ : Q ∈ (s.advance pid P ev rest shared).procs)
    (buried : Q.trace.any (buries messageId) = true) :
    (shared.db.dlqEntries.any fun entry => entry.messageId == messageId) = true := by
  obtain hQ | rfl := Pool.mem_advance hQ
  · exact turn.stays_buried (h.buried Q hQ messageId buried)
  · rw [List.any_cons, Bool.or_eq_true] at buried
    cases buried with
    | inl buried =>
        obtain ⟨uuid, answer⟩ := turn.answer
        exact entry_of_buries answer buried
    | inr buried => exact turn.stays_buried (h.buried P turn.member messageId buried)

/-- A settled message whose owner is at rest stays settled. -/
theorem settled_turn (turn : FaultyTurn s pid P ev shared) (h : Unharmed s)
    (closed : Closed s messageId) (hsettled : settled s.shared.db messageId = true) :
    settled shared.db messageId = true := by
  obtain ⟨r, hr, rfl, hstatus⟩ := settled_iff.mp hsettled
  obtain ⟨Q, hQ, hended, owned⟩ := closed
  obtain ⟨q, hQ⟩ := List.mem_iff_getElem?.mp hQ
  obtain ⟨done, carriedOut, rows⟩ := turn.rows
  obtain ⟨hr', -⟩ | ⟨status, finalDelivered, attempts, rfl, -⟩ := rows.messages hr
  · exact settled_iff.mpr ⟨r, hr', rfl, hstatus.imp_right fun ⟨hfailed, hdlq⟩ =>
      ⟨hfailed, turn.stays_buried hdlq⟩⟩
  · obtain ⟨x, hev⟩ := carriedOut.update
    have same := h.unique q pid Q P _ hQ turn.proc owned (turn.owner_of_update h hev)
    exact absurd same (turn.ne_of_ended hQ hended)

theorem held_turn (turn : FaultyTurn s pid P ev shared) (h : Unharmed s)
    (followed : Followed { P with rest := rest, trace := ev :: P.trace })
    (closed : Closed (s.advance pid P ev rest shared) messageId) : Held shared messageId := by
  obtain ⟨uuid, answer⟩ := turn.answer
  obtain ⟨Q, hQ, hended, owned⟩ := closed
  obtain hold | rfl := Pool.mem_advance hQ
  · have closed : Closed s messageId := ⟨Q, hold, hended, owned⟩
    cases h.held messageId closed with
    | inl hsettled => exact .inl (turn.settled_turn h closed hsettled)
    | inr hretried =>
        obtain hretried | ⟨key, min, max, n, m, hm, rfl, retry⟩ := hretried.turn answer
        · exact .inr hretried
        · -- the retry is only deleted if the message is settled
          have followed := turn.followed Q hold
          obtain ⟨e, he, hwell, rfl, -⟩ := unmatched_of_stores followed.always followed.tolerated
            (owns_iff.mp owned).1
          have spent := List.all_eq_true.mp turn.deletes m hm
          have := List.all_eq_true.mp spent e (mem_handed.mpr ⟨Q, hold, he⟩)
          simp [hwell, retry] at this
          exact .inl (turn.settled_turn h closed this.1)
  · obtain ⟨e, he, hwell, rfl, ready, concluded⟩ :=
      h.inOrder.ready (Q := { P with rest := rest, trace := ev :: P.trace }) turn.member rfl
        followed hended (owns_iff.mp owned).1
    obtain ⟨r, -, hid, hknown, hcommit⟩ := turn.owned_turn h turn.proc_own owned
    have hr := hcommit ready.committed
    obtain hdelivered | hknown := hknown
    · exact .inl (settled_iff.mpr ⟨r, hr, hid, .inl hdelivered⟩)
    obtain hfinal | ⟨hfailed, hburied⟩ | ⟨ev', hev, schedules⟩ := concluded
    · refine .inl (settled_iff.mpr ⟨r, hr, hid, .inl ?_⟩)
      exact (congrArg Prod.snd hknown).trans hfinal
    · refine .inl (settled_iff.mpr ⟨r, hr, hid, .inr ⟨?_, turn.buried_turn h hQ hburied⟩⟩)
      exact (congrArg Prod.fst hknown).trans hfailed
    · refine .inr ?_
      obtain rfl | hev := List.mem_cons.mp hev
      · exact retried_of_schedules answer schedules
      · exact turn.scheduled_turn h turn.member turn.unended he hwell hev schedules

end FaultyTurn

end Step

section Runs

variable {uuid : ℕ → String} {s s' : Workers} {pid : ℕ} {P : WorkerProc}
  {a : Action Reply JsError WorkerJob}

theorem Unharmed.turn {ev : CallEvent} {shared : World} {rest : Prog Unit} (h : Unharmed s)
    (turn : FaultyTurn s pid P ev shared)
    (followed : Followed { P with rest := rest, trace := ev :: P.trace }) :
    Unharmed (s.advance pid P ev rest shared) := by
  obtain ⟨uuid, answer⟩ := turn.answer
  obtain ⟨done, -, rows⟩ := turn.rows
  have grows := World.grows_of_lossy answer.1
  refine ⟨?_, rows.distinct h.distinct, fun r hr => turn.messages_turn h hr,
    fun q r hr => turn.pending_turn h hr, fun q Q messageId hQ owned => turn.owned_turn h hQ owned,
    fun p q P' Q messageId hP' hQ owned owned' => turn.unique_turn h hP' hQ owned owned',
    fun Q hQ ident hinserts kept => turn.skipped_turn h hQ hinserts kept,
    fun Q hQ messageId hknown => turn.learnt_turn h hQ hknown,
    fun Q hQ ev' hev r hr => turn.found_turn h hQ hev hr, ?_,
    fun Q hQ messageId buried => turn.buried_turn h hQ buried,
    fun messageId closed => turn.held_turn h followed closed⟩
  · have inOrder : InOrder (fun _ e => Closed (s.advance pid P ev rest shared)
        e.asMessage.messageId) s := h.inOrder.weaken fun e closed => turn.closed closed
    refine inOrder.keep grows.log grows.committed (fun Q hQ => ?_) fun _ closed => closed
    obtain hQ | rfl := Pool.mem_advance hQ
    · exact ⟨Q, hQ, rfl⟩
    · exact ⟨P, turn.member, rfl⟩
  · intro Q hQ unended e he hwell ev' hev schedules
    obtain hQ | rfl := Pool.mem_advance hQ
    · exact turn.scheduled_turn h hQ unended he hwell hev schedules
    · obtain rfl | hev := List.mem_cons.mp hev
      · exact retried_of_schedules answer schedules
      · exact turn.scheduled_turn h turn.member turn.unended he hwell hev schedules

/-- A step in which nobody makes a call. -/
theorem Unharmed.keep (h : Unharmed s)
    (inOrder : InOrder (fun _ e => Closed s e.asMessage.messageId) s')
    (db : s'.shared.db = s.shared.db)
    (retries : s'.shared.redis.zsets = s.shared.redis.zsets)
    (procs : ∀ (q : ℕ) (Q : WorkerProc), s'.procs[q]? = some Q →
      s.procs[q]? = some Q ∨ Q.trace = [])
    (stay : ∀ (q : ℕ) (Q : WorkerProc), s.procs[q]? = some Q → s'.procs[q]? = some Q) :
    Unharmed s' := by
  have stays {Q : WorkerProc} (hQ : Q ∈ s.procs) : Q ∈ s'.procs := by
    obtain ⟨q, hQ⟩ := List.mem_iff_getElem?.mp hQ
    exact List.mem_of_getElem? (stay q Q hQ)
  have old {Q : WorkerProc} (hQ : Q ∈ s'.procs) : Q ∈ s.procs ∨ Q.trace = [] := by
    obtain ⟨q, hQ⟩ := List.mem_iff_getElem?.mp hQ
    exact (procs q Q hQ).imp_left List.mem_of_getElem?
  have closed {messageId : String} (h : Closed s messageId) : Closed s' messageId := by
    obtain ⟨Q, hQ, hended⟩ := h
    exact ⟨Q, stays hQ, hended⟩
  have owner {q : ℕ} {Q : WorkerProc} {messageId : String} (hQ : s'.procs[q]? = some Q)
      (owned : owns messageId Q.trace = true) : s.procs[q]? = some Q := by
    apply (procs q Q hQ).resolve_right
    intro empty
    rw [empty] at owned
    cases owned
  have retried {messageId : String} (h : Retried s.shared messageId) :
      Retried s'.shared messageId := by rwa [Retried, retries]
  refine ⟨inOrder.weaken fun e => closed, db ▸ h.distinct, fun r hr => ?_, fun q r hr => ?_,
    fun q Q messageId hQ owned => db ▸ h.owned q Q messageId (owner hQ owned) owned,
    fun p q P Q messageId hP hQ owned owned' => h.unique p q P Q messageId (owner hP owned)
      (owner hQ owned') owned owned', fun Q hQ ident hinserts kept => ?_,
    fun Q hQ messageId hknown => ?_, fun Q hQ ev hev r hr => ?_,
    fun Q hQ unended e he hwell ev hev schedules => ?_, fun Q hQ messageId buried => ?_,
    fun messageId hclosed => ?_⟩
  · obtain ⟨Q, hQ, origin⟩ := h.messages r (db ▸ hr)
    exact ⟨Q, stays hQ, origin⟩
  · obtain ⟨Q, hQ, origin⟩ := h.pending q r (db ▸ hr)
    exact ⟨Q, stay q Q hQ, origin⟩
  · cases old hQ with
    | inl hQ => exact h.skipped Q hQ ident hinserts kept
    | inr empty =>
        rw [empty] at hinserts
        cases hinserts
  · cases old hQ with
    | inl hQ => exact db ▸ h.learnt Q hQ messageId hknown
    | inr empty =>
        rw [empty] at hknown
        exact absurd rfl hknown
  · cases old hQ with
    | inl hQ =>
        obtain ⟨hclosed, asked, fits⟩ := h.found Q hQ ev hev r hr
        exact ⟨closed hclosed, asked, fits⟩
    | inr empty =>
        rw [empty] at hev
        cases hev
  · cases old hQ with
    | inl hQ => exact retried (h.scheduled Q hQ unended e he hwell ev hev schedules)
    | inr empty =>
        rw [empty] at hev
        cases hev
  · cases old hQ with
    | inl hQ => exact db ▸ h.buried Q hQ messageId buried
    | inr empty =>
        rw [empty] at buried
        cases buried
  · obtain ⟨Q, hQ, hended, owned⟩ := hclosed
    obtain ⟨q, hQ⟩ := List.mem_iff_getElem?.mp hQ
    rcases h.held messageId ⟨Q, List.mem_of_getElem? (owner hQ owned), hended, owned⟩ with
      hsettled | hretried
    · exact .inl (db ▸ hsettled)
    · exact .inr (retried hretried)

theorem Unharmed.step (h : Unharmed s)
    (run : (failing uuid).Run (fun s a => unharmed s a = true) {} s)
    (step : (failing uuid).Step s a s') (permitted : unharmed s a = true) : Unharmed s' := by
  have next := run.next step permitted
  cases step with
  | @start job hstart =>
      refine h.keep (h.inOrder.start (fun b hb => ?_) fun b hb => ?_) rfl rfl
        (fun q Q hQ => ?_) fun q Q hQ => ?_
      · subst hb
        exact hstart
      · subst hb
        exact permitted
      · rw [Machine.getElem?_spawn] at hQ
        split at hQ
        · cases hQ
          exact .inr rfl
        · exact .inl hQ
      · have hlt := (List.getElem?_eq_some_iff.mp hQ).1
        rw [Machine.getElem?_spawn, if_neg (by omega), hQ]
  | @turn pid P c _ r shared hP hcrashed hrest answer =>
      have own := followed next ((Machine.getElem?_advance hP).trans (if_pos rfl))
      simp only [unharmed, Bool.and_eq_true] at permitted
      obtain ⟨⟨⟨tolerable, finds⟩, skips⟩, deletes⟩ := permitted
      refine h.turn ⟨hP, by rw [ended, hrest], ⟨uuid, answer⟩, own.always.1, tolerable, finds,
        skips, deletes, fun Q hQ => ?_⟩ own
      obtain ⟨q, hQ⟩ := List.mem_iff_getElem?.mp hQ
      exact followed run hQ
  | crash _ hcrash => exact hcrash.elim
  | @settle pid P outcome shared hP hcrashed hrest hsettle =>
      have member := List.mem_of_getElem? hP
      obtain ⟨b, hjob, rfl⟩ : ∃ b, P.job = .batch b ∧ shared = s.shared.commit b := by
        cases hjob : P.job with
        | batch b =>
            rw [hjob] at hsettle
            exact ⟨b, rfl, hsettle⟩
        | poll =>
            rw [hjob] at hsettle
            exact hsettle.elim
      have hended : ended P = true := by rw [ended, hrest]
      have same : (s.shared.commit b).db = s.shared.db ∧
          (s.shared.commit b).redis = s.shared.redis := by
        unfold World.commit
        split <;> exact ⟨rfl, rfl⟩
      refine h.keep (h.inOrder.settle member hjob (fun msg hmsg e hparse hwell => ?_)
        fun e closed => closed) same.1 (by rw [same.2]) (fun q Q hQ => .inl hQ) fun q Q hQ => hQ
      obtain ⟨-, uniform, -⟩ := h.inOrder.jobs P member b hjob
      have wellFormed : ∀ msg ∈ b.messages, msg.wellFormed = true :=
        uniform.1.resolve_right fun none => by
          have := none msg hmsg
          simp [KafkaMessage.wellFormed, hparse, hwell] at this
      refine closed_of_ended h member (followed run hP) hended ?_ hwell
      rw [hjob]
      exact (mem_entries wellFormed).mpr ⟨msg, hmsg, hparse⟩
  | drift hdrift =>
      obtain ⟨t, -, rfl⟩ | ⟨record, rfl⟩ := hdrift
      · exact h.keep (h.inOrder.keep (List.prefix_refl _) rfl (fun P hP => ⟨P, hP, rfl⟩)
          fun _ => id) rfl rfl (fun q Q hQ => .inl hQ) fun q Q hQ => hQ
      · exact h.keep (h.inOrder.keep (List.prefix_append _ _) rfl (fun P hP => ⟨P, hP, rfl⟩)
          fun _ => id) rfl rfl (fun q Q hQ => .inl hQ) fun q Q hQ => hQ

theorem unharmed_initial : Unharmed (Pool.initial {}) := by
  refine ⟨⟨fun _ _ _ => ⟨Nat.zero_le _, ?_⟩, ?_, ?_⟩, ?_, ?_, ?_, ?_, ?_, ?_, ?_, ?_, ?_, ?_, ?_⟩
  · exact fun offset value e hlt => absurd hlt (Nat.not_lt_zero _)
  · exact fun P hP => absurd hP List.not_mem_nil
  · exact fun e he => absurd he List.not_mem_nil
  · exact fun r hr => absurd hr List.not_mem_nil
  · exact fun r hr => absurd hr List.not_mem_nil
  · exact fun pid r hr => absurd hr List.not_mem_nil
  · exact fun pid P messageId hP => absurd (List.mem_of_getElem? hP) List.not_mem_nil
  · exact fun p q P Q messageId hP => absurd (List.mem_of_getElem? hP) List.not_mem_nil
  · exact fun P hP => absurd hP List.not_mem_nil
  · exact fun P hP => absurd hP List.not_mem_nil
  · exact fun P hP => absurd hP List.not_mem_nil
  · exact fun P hP => absurd hP List.not_mem_nil
  · exact fun P hP => absurd hP List.not_mem_nil
  · rintro messageId ⟨P, hP, -⟩
    exact absurd hP List.not_mem_nil

/-- In every unharmed run, every committed event is accounted for. -/
theorem none_lost (run : (failing uuid).Run (fun s a => unharmed s a = true) {} s) :
    NoneLost s.shared := by
  have h : Unharmed s := run.invariant unharmed_initial
    fun _ _ _ before h step permitted => h.step before step permitted
  intro topic htopic partition offset value e hvalue hparse hwell hlt
  have closed := (h.inOrder.committed topic htopic partition).holds offset value e hlt hvalue
    hparse hwell
  exact (h.held _ closed).imp_right .inl

end Runs

/-! ## A batch that is dropped -/

section Dropped

/-- The partition with the record of `sampleMessage`. -/
def sampleLog : World := { log := [sampleRecord] }

def sampleBatch : Batch := ⟨"messages.sms", 0, sampleLog.fetch "messages.sms" 0 0 1⟩

/-- The worker of the batch makes its calls, of which those in `broken` fail; the provider
answers with `choice`. -/
def handle (permit : Workers → Action Reply JsError WorkerJob → Bool) (broken : Call → Bool)
    (choice : Choice) : Workers :=
  Machine.turns permit (fun c w => w.brokenAnswer broken toString 0 choice c) 0 40
    ((Pool.initial sampleLog).spawn (.batch sampleBatch) (WorkerJob.code (.batch sampleBatch)))

/-- When the worker has come to its end, its batch is committed. -/
def consumed (permit : Workers → Action Reply JsError WorkerJob → Bool) (broken : Call → Bool)
    (choice : Choice) : Workers :=
  match (handle permit broken choice).procs[(0 : ℕ)]? with
  | some ⟨.batch b, .done _, _, false⟩ =>
    { handle permit broken choice with shared := (handle permit broken choice).shared.commit b }
  | _ => handle permit broken choice

theorem mayThrow_brokenAnswer {broken : Call → Bool} {uuid : ℕ → String} {pid : ℕ}
    {choice : Choice} {w w' : World} {c : Call} {r : Except JsError (Reply c)}
    (h : w.brokenAnswer broken uuid pid choice c = some (r, w')) : mayThrow uuid pid w ⟨c, r⟩ w' :=
  ⟨.inl (World.faulty_brokenAnswer h), fun _ => World.faulty_brokenAnswer h⟩

theorem run_consumed (permit : Workers → Action Reply JsError WorkerJob → Bool)
    (others : ∀ s, permit s .drift = true ∧ ∀ pid, permit s (.settle pid) = true)
    (start : permit (Pool.initial sampleLog) (.start (.batch sampleBatch)) = true)
    (broken : Call → Bool) (choice : Choice) :
    (failing toString).Run (fun s a => permit s a = true) {} (consumed permit broken choice) := by
  have appended : (failing toString).Run (fun s a => permit s a = true) {}
      (Pool.initial sampleLog) :=
    .next .initial (.drift (Or.inr ⟨sampleRecord, rfl⟩)) (others _).1
  have offers : sampleLog.Offers sampleBatch := ⟨by decide, by decide, 0, 1, Nat.zero_le _, rfl⟩
  have started : (failing toString).Step (Pool.initial sampleLog) (.start (.batch sampleBatch))
      ((Pool.initial sampleLog).spawn (.batch sampleBatch) (WorkerJob.code (.batch sampleBatch))) :=
    .start offers
  have handled : (failing toString).Run (fun s a => permit s a = true) {}
      (handle permit broken choice) :=
    Machine.Run.turns (fun _ _ _ _ => mayThrow_brokenAnswer) (fun _ _ h => h)
      (appended.next started start) 40
  unfold consumed
  split
  · next b outcome trace hP => exact handled.next (.settle hP rfl rfl rfl) ((others _).2 0)
  · exact handled

def noConnection : Call → Bool
  | .sql .getConnection => true
  | _ => false

def noKafka : Call → Bool
  | .produce .. => true
  | _ => false

/-- When the batch's first connection cannot be had, the `catch` of `eachBatch` swallows the
error, the offset is committed, and nothing is left of the message. -/
theorem none_lost_fails :
    ¬ ∀ s, (failing toString).Run (fun _ _ => True) {} s → NoneLost s.shared := by
  intro noneLost
  have run := (run_consumed (fun _ _ => true) (fun _ => ⟨rfl, fun _ => rfl⟩) rfl noConnection
    { outcome := .ok ⟨true, none⟩ }).mono fun _ _ _ => trivial
  obtain ⟨e, hparse, hwell, -⟩ := sampleRecord_wellFormed
  rcases noneLost _ run "messages.sms" (by decide) 0 0 _ e rfl hparse hwell (by decide) with
    hsettled | ⟨score, channel, attempt, hretried⟩ | ⟨topic, htopic, partition, offset, retry, hle,
      hevent, -⟩
  · exact absurd hsettled Bool.false_ne_true
  · exact absurd hretried List.not_mem_nil
  · have hlog : (consumed (fun _ _ => true) noConnection
        { outcome := .ok ⟨true, none⟩ }).shared.log = [sampleRecord] := rfl
    rw [World.events, hlog, List.filter_cons] at hevent
    split at hevent
    · next here =>
        rw [Bool.and_eq_true, beq_iff_eq, beq_iff_eq] at here
        obtain ⟨rfl, rfl⟩ := here
        have hle : 1 ≤ offset := hle
        rw [List.getElem?_eq_none (by simpa using hle)] at hevent
        cases hevent
    · cases hevent

/-- The provider rejects and Kafka is down, and a retry is scheduled. -/
theorem none_lost_retried :
    (consumed unharmed noKafka { outcome := .error { message := "timeout" } }).shared.committed
      "messages.sms" 0 = 1 ∧
    NoneLost (consumed unharmed noKafka
      { outcome := .error { message := "timeout" } }).shared :=
  ⟨by decide, none_lost (run_consumed _ (fun _ => ⟨rfl, fun _ => rfl⟩) (by decide) _ _)⟩

end Dropped

end Consuming

end Notification
