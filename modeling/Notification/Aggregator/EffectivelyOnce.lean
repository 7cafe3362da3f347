import Notification.Aggregator.Handling
import Notification.Aggregator.Terminal

/-!
# Effectively once per idempotency pair

Any number of workers consume any batches, and every infrastructure call succeeds. What
keeps a pair from being sent twice is spread over the bulk `SELECT`, the `INSERT` that may
be skipped, the Redis marker and the status of the row. The result of a skipped `INSERT`
is not looked at, the marker of a delivered message expires, and a worker that has passed
its check is not stopped by another one's `SENT`. As long as none of this matters, all
provider calls for a pair carry one token, and none follows a success that is written down.
-/

namespace Notification

open Interaction Program

namespace Consuming

/-- Workers started at any time for any batches and polls, in a world without failures. -/
def workers (uuid : ℕ → String) : Machine Reply JsError Unit WorkerJob World where
  code := WorkerJob.code
  starts _ _ := True
  answers := World.up uuid
  crashes _ _ _ := False
  settles _ _ _ _ := False
  drifts := World.later

/-- The message of a provider call, and the token it carries. -/
def sending? : CallEvent → Option (MessageToDeliver × String)
  | ⟨.send _ _ _ options m, _⟩ => some (m, options.idempotencyToken)
  | _ => none

/-- A successful provider call for the message. -/
def succeeds (m : MessageToDeliver) : CallEvent → Bool
  | ⟨.send _ _ _ _ m', .ok _⟩ => m' == m
  | _ => false

/-- `updateStatus` has set `SENT` and `finalDelivered` for a message. -/
def isSent (messageId : String) : CallEvent → Bool
  | ⟨.repository (.updateStatus messageId' .sent true _), .ok _⟩ => messageId' == messageId
  | _ => false

/-- How `SENT` gets set: by a call of an execution for the message. -/
theorem isSent_iff {messageId : String} {ev : CallEvent} (h : isSent messageId ev = true) :
    ∃ attempts, ev = ⟨.repository (.updateStatus messageId .sent true attempts), .ok ()⟩ := by
  unfold isSent at h
  split at h
  · next messageId' attempts _ =>
      rw [beq_iff_eq] at h
      exact ⟨attempts, by rw [h]⟩
  · cases h

/-- All provider calls for a pair carry the same token, and once one of them has succeeded
and `SENT` has been written for it, no other follows. -/
structure EffectivelyOnce (s : Workers) : Prop where
  token : ∀ x ∈ s.history, ∀ y ∈ s.history, ∀ m token m' token',
    sending? x.2 = some (m, token) → sending? y.2 = some (m', token') → m.pair = m'.pair →
      token = token'
  once : ∀ later p ev earlier m, s.history = later ++ (p, ev) :: earlier →
    isSent m.messageId ev = true → (∃ x ∈ earlier, succeeds m x.2 = true) →
      ∀ x ∈ later, ∀ m' token, sending? x.2 = some (m', token) → m'.pair ≠ m.pair

/-- `SENT` has been written for a message. -/
def written (messageId : String) (s : Workers) : Bool :=
  s.history.any fun x => isSent messageId x.2

/-- What must not get in the way of the duplicate checks:
* no `INSERT` clashes with the row of another event;
* when `SENT` is written, no worker is between a check that missed the message and its
  provider call;
* when a check asks for the marker of a message for which `SENT` has been written, the
  marker has not expired;
* when it asks for the status of such a message, `SENT` has not been overwritten. -/
def orderly (s : Workers) : Action Reply JsError WorkerJob → Bool
  | .turn pid ev =>
    match ev.call with
    | .sql (.execute (.insert .messages columns values)) =>
      (s.shared.db.visible pid).all fun r =>
        !(insertedRow columns values).clashes r || r.ident == (insertedRow columns values).ident
    | .repository (.updateStatus messageId .sent true _) =>
      s.shared.db.messages.all fun r => r.messageId != messageId ||
        s.procs.all fun P => !opened messageId r.dedupKey P.trace
    | .redis (.exists key) =>
      s.shared.db.messages.all fun r => !written r.messageId s ||
        key != DeliveryDeduplicationService.buildDeliveryKey r.dedupKey ||
        (s.shared.redis.live key).isSome
    | .repository (.getStatus messageId) =>
      s.shared.db.messages.all fun r => r.messageId != messageId || !written messageId s ||
        r.finalDelivered
    | _ => true
  | _ => true

/-- Why a run without disorder is effectively once. -/
structure Orderly (s : Workers) : Prop extends EffectivelyOnce s where
  distinct : s.shared.db.Distinct
  /-- An inserted or skipped row is there. -/
  inserted : ∀ (pid : ℕ) (P : WorkerProc) ident, s.procs[pid]? = some P →
    P.trace.any (inserts ident) = true → P.trace.any isRollback = false →
      ∃ r ∈ s.shared.db.visible pid, r.ident = ident
  /-- A provider call is made for a message whose row is there. -/
  sent : ∀ x ∈ s.history, ∀ m token, sending? x.2 = some (m, token) →
    token = m.messageId ∧ ∃ r ∈ s.shared.db.visible x.1, r.ident = m.ident
  /-- Nobody is about to send a message for which `SENT` has been written. -/
  closed : ∀ messageId, written messageId s = true → ∃ r ∈ s.shared.db.messages,
    r.messageId = messageId ∧ ∀ P ∈ s.procs, opened messageId r.dedupKey P.trace = false

section Events

variable {uuid : ℕ → String} {conn pid : ℕ} {w w' : World} {db db' : Database} {ev : CallEvent}
  {m : MessageToDeliver} {r : MessageRow} {b : Batch} {before : Trace Reply JsError}

theorem sending_of_succeeds (h : succeeds m ev = true) :
    ∃ token, sending? ev = some (m, token) := by
  unfold succeeds at h
  split at h
  · next options m' _ =>
      rw [beq_iff_eq] at h
      exact ⟨options.idempotencyToken, by rw [h]; rfl⟩
  · cases h

theorem isDelivery_of_sending {token : String} (h : sending? ev = some (m, token)) :
    isDelivery ev = true := by
  unfold sending? at h
  split at h
  · rfl
  · cases h

theorem closes_of_isSent {messageId : String} (h : isSent messageId ev = true) :
    closes messageId ev = true := by
  obtain ⟨attempts, rfl⟩ := isSent_iff h
  simp [closes]

/-- A provider call and what has gone before it. -/
theorem may_of_sending {token : String} (h : sending? ev = some (m, token))
    (may : MayConsume b ev before) : token = m.messageId ∧ Ready b m before ∧
      opened m.messageId m.dedupKey before = true := by
  obtain ⟨call, r⟩ := ev
  cases call with
  | send provider recipient body options message =>
      cases h
      exact may
  | _ => cases h

/-- After an accepted `INSERT` there is a row with its identity. -/
theorem visible_of_inserts {ident : String × (String × String) × String}
    (rows : RowStep conn ev db db') (h : inserts ident ev = true)
    (same : ∀ columns values r, ev = ⟨.sql (.execute (.insert .messages columns values)), r⟩ →
      ∀ x ∈ db.visible conn, (insertedRow columns values).clashes x = true →
        x.ident = (insertedRow columns values).ident) :
    ∃ r ∈ db'.visible conn, r.ident = ident := by
  unfold inserts at h
  split at h
  · next columns values r =>
      rw [Bool.and_eq_true, beq_iff_eq] at h
      obtain ⟨haccepted, rfl⟩ := h
      cases rows with
      | insert free hcase =>
          refine ⟨_, Database.mem_visible.mpr ?_, rfl⟩
          obtain ⟨-, hpending⟩ | ⟨hmessages, -⟩ := hcase
          · exact .inr (hpending ▸ List.mem_append_right _ (List.mem_singleton.mpr rfl))
          · exact .inl (hmessages ▸ List.mem_append_right _ (List.mem_singleton.mpr rfl))
      | keep hmessages hpending hinsert _ =>
          obtain ⟨x, hx, clash⟩ := (hinsert _ _ _ rfl).2 haccepted
          refine ⟨x, ?_, same _ _ _ rfl x hx clash⟩
          rwa [Database.visible, hmessages, hpending]
  · cases h

/-- A duplicate check does not miss a message whose marker and status are still there. -/
theorem not_misses (answer : w.up uuid pid ev w') (distinct : w.db.Distinct)
    (member : r ∈ w.db.messages)
    (marker : ev.call = .redis
      (.exists (DeliveryDeduplicationService.buildDeliveryKey r.dedupKey)) →
      (w.redis.live (DeliveryDeduplicationService.buildDeliveryKey r.dedupKey)).isSome = true)
    (delivered : ev.call = .repository (.getStatus r.messageId) → r.finalDelivered = true) :
    misses r.messageId r.dedupKey ev = false := by
  obtain ⟨choice, answer⟩ := answer
  unfold misses
  split
  · next key n =>
      cases answer
      by_cases hkey : key = DeliveryDeduplicationService.buildDeliveryKey r.dedupKey
      · rw [hkey, if_pos (marker (by rw [hkey]))]
        simp
      · simp [hkey]
  · cases answer
  · next messageId' status =>
      cases answer
      by_cases hid : messageId' = r.messageId
      · subst hid
        obtain ⟨r', hr'⟩ := Option.isSome_iff_exists.mp (List.find?_isSome.mpr
          ⟨r, member, beq_self_eq_true r.messageId⟩ :
            (w.db.messages.find? fun x => x.messageId == r.messageId).isSome = true)
        have hid : r'.messageId = r.messageId := by simpa using List.find?_some hr'
        have hrow : r' = r :=
          distinct r' (Database.mem_rows.mpr (.inl (List.mem_of_find?_eq_some hr')))
          r (Database.mem_rows.mpr (.inl member)) (MessageRow.clashes_iff.mpr (.inl hid))
        simp [Database.getStatus, hr', hrow, delivered rfl]
      · simp [hid]
  · rfl

end Events

section Runs

variable {uuid : ℕ → String} {init : World} {s s' : Workers} {pid : ℕ} {P : WorkerProc}
  {a : Action Reply JsError WorkerJob}

theorem follows {allowed : Workers → Action Reply JsError WorkerJob → Prop}
    (run : (workers uuid).Run allowed init s) (hP : s.procs[pid]? = some P) :
    Always (MayConsume P.job.toBatch) P.trace :=
  (run.local_invariant (fun _ _ _ _ => tolerable_of_up) hP (wp_code P.job) trivial).1

/-- One call of a worker, in a run without disorder. -/
structure Turn (s : Workers) (pid : ℕ) (P : WorkerProc) (ev : CallEvent)
    (shared : World) : Prop where
  proc : s.procs[pid]? = some P
  own : own pid s.history = P.trace
  answer : ∃ uuid, s.shared.up uuid pid ev shared
  rows : RowStep pid ev s.shared.db shared.db
  may : MayConsume P.job.toBatch ev P.trace
  permitted : orderly s (.turn pid ev) = true

section Step

variable {ev : CallEvent} {shared : World} {rest : Prog Unit} {m : MessageToDeliver}
  {r r' : MessageRow}

/-- The rows of the same event are one row. -/
theorem Orderly.same (h : Orderly s) (hr : r ∈ s.shared.db.rows) (hr' : r' ∈ s.shared.db.rows)
    (hid : r.messageId = r'.messageId ∨ r.pair = r'.pair) : r = r' :=
  h.distinct r hr r' hr' (MessageRow.clashes_iff.mpr (hid.imp_right .inl))

theorem Turn.insert_same (turn : Turn s pid P ev shared) {columns : List String}
    {values : List Expr} {r : Except JsError Unit}
    (hev : ev = ⟨.sql (.execute (.insert .messages columns values)), r⟩) (x : MessageRow)
    (hx : x ∈ s.shared.db.visible pid) (clash : (insertedRow columns values).clashes x = true) :
    x.ident = (insertedRow columns values).ident := by
  have permitted := turn.permitted
  simp only [orderly, hev, List.all_eq_true, Bool.or_eq_true, Bool.not_eq_true', beq_iff_eq]
    at permitted
  exact (permitted x hx).resolve_left (by simp [clash])

/-- A row that a worker's message was sent with does not go. -/
theorem Turn.visible (turn : Turn s pid P ev shared) {c : ℕ} (hr : r ∈ s.shared.db.visible c)
    (kept : c = pid → isRollback ev = false) : ∃ r' ∈ shared.db.visible c, r'.ident = r.ident := by
  apply turn.rows.visible hr
  intro hc x hx
  have := kept hc
  rw [hx] at this
  cases this

theorem Orderly.inserted_turn (h : Orderly s) (turn : Turn s pid P ev shared)
    {q : ℕ} {Q : WorkerProc} {ident : String × (String × String) × String}
    (hQ : (s.advance pid P ev rest shared).procs[q]? = some Q)
    (hinserts : Q.trace.any (inserts ident) = true) (hkept : Q.trace.any isRollback = false) :
    ∃ r ∈ shared.db.visible q, r.ident = ident := by
  have old {Q : WorkerProc} (hQ : s.procs[q]? = some Q)
    (hinserts : Q.trace.any (inserts ident) = true)
      (hkept : Q.trace.any isRollback = false) (kept : q = pid → isRollback ev = false) :
      ∃ r ∈ shared.db.visible q, r.ident = ident := by
    obtain ⟨r, hr, hident⟩ := h.inserted q Q ident hQ hinserts hkept
    obtain ⟨r', hr', hident'⟩ := turn.visible hr kept
    exact ⟨r', hr', hident'.trans hident⟩
  rw [Machine.getElem?_advance turn.proc] at hQ
  split at hQ
  · next heq =>
      subst heq
      cases hQ
      rw [List.any_cons, Bool.or_eq_false_iff] at hkept
      rw [List.any_cons, Bool.or_eq_true] at hinserts
      cases hinserts with
      | inl hinserts =>
          exact visible_of_inserts turn.rows hinserts fun _ _ _ hev => turn.insert_same hev
      | inr hinserts => exact old turn.proc hinserts hkept.2 fun _ => hkept.1
  · next hne => exact old hQ hinserts hkept fun hq => absurd hq hne

theorem Orderly.sent_turn (h : Orderly s) (turn : Turn s pid P ev shared) {x : ℕ × CallEvent}
    (hx : x ∈ (pid, ev) :: s.history) {token : String} (hsending : sending? x.2 = some (m, token)) :
    token = m.messageId ∧ ∃ r ∈ shared.db.visible x.1, r.ident = m.ident := by
  have visible {c : ℕ} (hrow : ∃ r ∈ s.shared.db.visible c, r.ident = m.ident)
      (kept : c = pid → isRollback ev = false) : ∃ r ∈ shared.db.visible c, r.ident = m.ident := by
    obtain ⟨r, hr, hident⟩ := hrow
    obtain ⟨r', hr', hident'⟩ := turn.visible hr kept
    exact ⟨r', hr', hident'.trans hident⟩
  obtain rfl | hx := List.mem_cons.mp hx
  · obtain ⟨htoken, ready, -⟩ := may_of_sending hsending turn.may
    refine ⟨htoken, visible (h.inserted pid P _ turn.proc ready.inserted ready.kept) fun _ => ?_⟩
    by_contra hrollback
    unfold isRollback at hrollback
    split at hrollback
    · cases hsending
    · exact hrollback rfl
  · obtain ⟨htoken, hrow⟩ := h.sent x hx m token hsending
    refine ⟨htoken, visible hrow fun hpid => ?_⟩
    -- who has called a provider does not roll back any more
    have hmem : x.2 ∈ P.trace := by
      rw [← turn.own, mem_own, ← hpid]
      exact hx
    by_contra hrollback
    have may := turn.may
    unfold isRollback at hrollback
    split at hrollback
    · have := List.any_eq_false.mp may x.2 hmem
      exact this (isDelivery_of_sending hsending)
    · exact hrollback rfl

/-- When `SENT` is written, the message's row is committed and no other worker is about
to send the message. -/
theorem Orderly.closed_of_isSent (h : Orderly s) (turn : Turn s pid P ev shared)
    {messageId : String} (hsent : isSent messageId ev = true) :
    ∃ r ∈ s.shared.db.messages, r.messageId = messageId ∧
      ∀ Q ∈ s.procs, opened messageId r.dedupKey Q.trace = false := by
  obtain ⟨attempts, rfl⟩ := isSent_iff hsent
  obtain ⟨m, rfl, ready, -⟩ := turn.may
  obtain ⟨r, hr, hident⟩ := h.inserted pid P m.ident turn.proc ready.inserted ready.kept
  have hid : r.messageId = m.messageId := congrArg Prod.fst hident
  have hmem : r ∈ s.shared.db.messages := by
    cases turn.rows with
    | keep _ _ _ hnot => exact absurd rfl (hnot _ _ _ _)
    | update idle _ _ =>
        exact (Database.mem_visible.mp hr).resolve_right fun hr => idle _ hr hid
  have permitted := turn.permitted
  simp only [orderly, List.all_eq_true, Bool.or_eq_true, bne_iff_ne, Bool.not_eq_true'] at permitted
  exact ⟨r, hmem, hid, (permitted r hmem).resolve_left (not_not_intro hid)⟩

theorem Orderly.closed_turn (h : Orderly s) (turn : Turn s pid P ev shared) {messageId : String}
    (hwritten : written messageId (s.advance pid P ev rest shared) = true) :
    ∃ r ∈ shared.db.messages, r.messageId = messageId ∧
      ∀ Q ∈ (s.advance pid P ev rest shared).procs,
        opened messageId r.dedupKey Q.trace = false := by
  have before : isSent messageId ev = true ∨ written messageId s = true := by
    simpa [written, Pool.advance] using hwritten
  -- the row was there, and the worker has not reached a provider call by this call
  suffices hrow : ∃ r ∈ s.shared.db.messages, r.messageId = messageId ∧
      (∀ Q ∈ s.procs, opened messageId r.dedupKey Q.trace = false) ∧
      opened messageId r.dedupKey (ev :: P.trace) = false by
    obtain ⟨r, hr, hid, hothers, hown⟩ := hrow
    obtain ⟨r', hr', hident⟩ := turn.rows.ident hr
    simp only [MessageRow.ident, Prod.mk.injEq] at hident
    refine ⟨r', hr', hident.1.trans hid, fun Q hQ => ?_⟩
    rw [hident.2.2]
    obtain ⟨q, hQ⟩ := List.mem_iff_getElem?.mp hQ
    rw [Machine.getElem?_advance turn.proc] at hQ
    split at hQ
    · cases hQ
      exact hown
    · exact hothers Q (List.mem_of_getElem? hQ)
  by_cases hsent : isSent messageId ev = true
  · obtain ⟨r, hr, hid, hothers⟩ := h.closed_of_isSent turn hsent
    exact ⟨r, hr, hid, hothers, by rw [opened, closes_of_isSent hsent]; rfl⟩
  · have hwritten := before.resolve_left hsent
    obtain ⟨r, hr, rfl, hothers⟩ := h.closed messageId hwritten
    obtain ⟨uuid, answer⟩ := turn.answer
    have permitted := turn.permitted
    have hmiss := not_misses answer h.distinct hr (fun hcall => by
      simp only [orderly, hcall, List.all_eq_true, Bool.or_eq_true, Bool.not_eq_true',
        bne_iff_ne] at permitted
      exact (permitted r hr).resolve_left (by simp [hwritten])) fun hcall => by
      simp only [orderly, hcall, List.all_eq_true, Bool.or_eq_true, Bool.not_eq_true',
        bne_iff_ne] at permitted
      exact (permitted r hr).resolve_left (by simp [hwritten])
    refine ⟨r, hr, rfl, hothers, ?_⟩
    rw [opened, hmiss, hothers P (List.mem_of_getElem? turn.proc)]
    simp

/-- A worker that calls a provider for a pair does so before `SENT` is written for it. -/
theorem Orderly.once_turn (h : Orderly s) (turn : Turn s pid P ev shared) {m' : MessageToDeliver}
    {token : String} (hsending : sending? ev = some (m', token))
    (hwritten : written m.messageId s = true) (hsucceeds : ∃ x ∈ s.history, succeeds m x.2 = true) :
    m'.pair ≠ m.pair := by
  intro hpair
  obtain ⟨-, ready, isOpen⟩ := may_of_sending hsending turn.may
  obtain ⟨r', hr', hident'⟩ := h.inserted pid P m'.ident turn.proc ready.inserted ready.kept
  obtain ⟨x, hx, hsucceeds⟩ := hsucceeds
  obtain ⟨token', hsending'⟩ := sending_of_succeeds hsucceeds
  obtain ⟨-, r, hr, hident⟩ := h.sent x hx m token' hsending'
  obtain ⟨r₀, hr₀, hid₀, hclosed⟩ := h.closed m.messageId hwritten
  simp only [MessageRow.ident, MessageToDeliver.ident, Prod.mk.injEq] at hident hident'
  have hrow : r' = r := h.same (Database.rows_of_visible hr') (Database.rows_of_visible hr)
    (.inr (hident'.2.1.trans (hpair.trans hident.2.1.symm)))
  have hrow₀ : r₀ = r := h.same (Database.mem_rows.mpr (.inl hr₀)) (Database.rows_of_visible hr)
    (.inl (hid₀.trans hident.1.symm))
  subst hrow hrow₀
  have hnot := hclosed P (List.mem_of_getElem? turn.proc)
  rw [← hident.1, hident'.1, hident'.2.2, isOpen] at hnot
  cases hnot

theorem Orderly.turn (h : Orderly s) (turn : Turn s pid P ev shared) :
    Orderly (s.advance pid P ev rest shared) where
  distinct := turn.rows.distinct h.distinct
  inserted _ _ _ hQ := h.inserted_turn turn hQ
  sent _ hx _ _ hsending := h.sent_turn turn hx hsending
  closed _ hwritten := h.closed_turn turn hwritten
  token := by
    intro x hx y hy m token m' token' hm hm' hpair
    obtain ⟨rfl, r, hr, hident⟩ := h.sent_turn turn hx hm
    obtain ⟨rfl, r', hr', hident'⟩ := h.sent_turn turn hy hm'
    simp only [MessageRow.ident, MessageToDeliver.ident, Prod.mk.injEq] at hident hident'
    have hrow : r = r' := turn.rows.distinct h.distinct r (Database.rows_of_visible hr) r'
      (Database.rows_of_visible hr') (MessageRow.clashes_iff.mpr (.inr (.inl
        (hident.2.1.trans (hpair.trans hident'.2.1.symm)))))
    rw [← hident.1, ← hident'.1, hrow]
  once := by
    intro later p ev' earlier m heq hsent hsucceeds x hx m' token hm'
    cases later with
    | nil => cases hx
    | cons x₀ later =>
        obtain ⟨rfl, hold⟩ := List.cons.inj heq
        obtain rfl | hx := List.mem_cons.mp hx
        · refine h.once_turn turn hm' ?_ ?_
          · simp [written, hold, hsent]
          · obtain ⟨y, hy, hsucceeds⟩ := hsucceeds
            exact ⟨y, by simp [hold, hy], hsucceeds⟩
        · exact h.once later p ev' earlier m hold hsent hsucceeds x hx m' token hm'

end Step

theorem Orderly.step (h : Orderly s)
    (run : (workers uuid).Run (fun s a => orderly s a = true) init s)
    (step : (workers uuid).Step s a s') (permitted : orderly s a = true) : Orderly s' := by
  cases step with
  | start hstart =>
      refine ⟨⟨h.token, h.once⟩, h.distinct, fun q Q ident hQ hinserts hkept => ?_, h.sent,
        fun messageId hwritten => ?_⟩
      · rw [Machine.getElem?_spawn] at hQ
        split at hQ
        · cases hQ
          cases hinserts
        · exact h.inserted q Q ident hQ hinserts hkept
      · obtain ⟨r, hr, hid, hclosed⟩ := h.closed messageId hwritten
        refine ⟨r, hr, hid, fun Q hQ => ?_⟩
        cases List.mem_append.mp hQ with
        | inl hQ => exact hclosed Q hQ
        | inr hQ =>
            rw [List.mem_singleton.mp hQ]
            rfl
  | turn hP hcrashed hrest answer =>
      have may := (follows (.next run (.turn hP hcrashed hrest answer) permitted)
        ((Machine.getElem?_advance hP).trans (if_pos rfl))).1
      exact h.turn ⟨hP, run.coherent.traces _ _ hP, ⟨uuid, answer⟩,
        rowStep_of_up answer may.noUpdate, may, permitted⟩
  | crash _ h => exact h.elim
  | settle _ _ _ h => exact h.elim
  | drift hlater =>
      obtain ⟨t, -, rfl⟩ := hlater
      exact ⟨⟨h.token, h.once⟩, h.distinct, h.inserted, h.sent, h.closed⟩

/-- Every run in which nothing gets in the way of the duplicate checks is effectively once. -/
theorem effectively_once (run : (workers uuid).Run (fun s a => orderly s a = true) init s)
    (distinct : init.db.Distinct) : EffectivelyOnce s := by
  suffices h : Orderly s from h.toEffectivelyOnce
  refine run.invariant ⟨⟨?_, ?_⟩, distinct, ?_, ?_, ?_⟩ fun _ _ _ before h step permitted =>
    h.step before step permitted
  · intro x hx
    cases hx
  · intro later p ev earlier m heq
    simp [Pool.initial] at heq
  · intro pid P ident hP
    simp [Pool.initial] at hP
  · intro x hx
    cases hx
  · intro messageId hwritten
    cases hwritten

end Runs

/-! ## Two events of one pair in a batch -/

section Rivals

/-- `sampleMessage` as a second request with the same pair would publish it. -/
def rivalMessage : MessageToDeliver := { sampleMessage with messageId := "m-2", dedupKey := "d-2" }

/-- A batch of `messages.sms` with these messages. -/
def batchOf (messages : List MessageToDeliver) : WorkerJob :=
  .batch ⟨"messages.sms", 0, messages.mapIdx fun offset m => ⟨offset, some (some m.event)⟩⟩

/-- Workers that start with an empty database; the provider accepts everything. -/
def consume (permit : Workers → Action Reply JsError WorkerJob → Bool) (jobs : List WorkerJob)
    (order : List (ℕ × ℕ)) : Workers :=
  (workers toString).staged permit
    (fun pid c w => w.answer toString pid { outcome := .ok ⟨true, none⟩ } c) {} jobs order

theorem run_consume {permit : Workers → Action Reply JsError WorkerJob → Bool}
    (starting : ∀ s job, permit s (.start job) = true) (jobs : List WorkerJob)
    (order : List (ℕ × ℕ)) :
    (workers toString).Run (fun s a => permit s a = true) {} (consume permit jobs order) :=
  .staged (fun _ _ _ _ _ => World.up_of_answer) (fun _ _ => trivial) starting _ _

/-- One worker and one batch with both. -/
def rivals : Workers :=
  consume (fun _ _ => true) [batchOf [sampleMessage, rivalMessage]] [(0, 27)]

/-- The second `INSERT` is skipped as a duplicate and both messages are sent. -/
theorem effectively_once_fails :
    rivals.shared.inbox.map (fun x => (x.message.pair, x.options.idempotencyToken)) =
      [(("tenant-1", "key-1"), "m-1"), (("tenant-1", "key-1"), "m-2")] ∧
    ¬ ∀ s, (workers toString).Run (fun _ _ => True) {} s → EffectivelyOnce s := by
  refine ⟨by decide, fun once => ?_⟩
  have h := once rivals ((run_consume (fun _ _ => rfl) _ _).mono fun _ _ _ => trivial)
  have token : "m-1" = "m-2" :=
    h.token rivals.history[15] (List.getElem_mem _) rivals.history[7] (List.getElem_mem _)
      sampleMessage _ rivalMessage _ rfl rfl rfl
  exact absurd token (by decide)

/-- A batch is processed by two workers at once: both find its message to be new, one of
them inserts the row, and the other one comes to its check after the delivery. -/
def rebalanced : Workers :=
  consume orderly [batchOf [sampleMessage], batchOf [sampleMessage]]
    [(0, 3), (1, 3), (0, 5), (1, 5), (0, 10), (1, 4)]

theorem effectively_once_rebalanced :
    rebalanced.history.length = 30 ∧
    rebalanced.shared.inbox.map (fun x => x.options.idempotencyToken) = ["m-1"] ∧
    EffectivelyOnce rebalanced :=
  ⟨by decide, by decide,
    effectively_once (run_consume (fun _ _ => rfl) _ _) fun _ hr => absurd hr List.not_mem_nil⟩

end Rivals

end Consuming

end Notification
