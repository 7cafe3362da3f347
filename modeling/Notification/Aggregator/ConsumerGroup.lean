import Notification.Aggregator.Handling
import Notification.Lookup.Offsets

/-!
# The consumer group

The workers share the partitions of the message topics. A batch takes up the log of a
partition at or below the committed offset, so that every event from there on is delivered
again to whoever is started next. When `eachBatch` has returned, the offset after the
batch's last message is committed, whatever it returned: kafkajs resolves it by itself.
Records are appended to the topics at any time.
-/

namespace Notification

open Interaction Program

/-- The subscribed topics. -/
def topics : List String := ["messages.email", "messages.sms", "messages.whatsapp"]

namespace World

/-- The values of a partition's records; the index is the offset. -/
def events (w : World) (topic : String) (partition : ℕ) : List Json :=
  (w.log.filter fun r => r.topic == topic && r.partition == partition).map Record.value

/-- At most `n` records of a partition from an offset on. -/
def fetch (w : World) (topic : String) (partition lo n : ℕ) : List KafkaMessage :=
  (((w.events topic partition).drop lo).take n).mapIdx fun i value => ⟨lo + i, some (some value)⟩

/-- Kafka may hand out the batch. -/
def Offers (w : World) (b : Batch) : Prop :=
  b.topic ∈ topics ∧ b.messages ≠ [] ∧ ∃ lo n, lo ≤ w.committed b.topic b.partition ∧
    b.messages = w.fetch b.topic b.partition lo n

/-- The offset after the batch's last message is committed. -/
def commit (w : World) (b : Batch) : World :=
  match b.messages.getLast? with
  | none => w
  | some message =>
    { w with
      committed := fun topic partition =>
        if topic = b.topic ∧ partition = b.partition then message.offset + 1
        else w.committed topic partition }

/-- Redis's clock moves on, or a record is appended to a topic. -/
def evolves (w w' : World) : Prop :=
  w.later w' ∨ ∃ record, w' = { w with log := w.log ++ [record] }

/-- Nothing that has been sent or appended gets lost, and no offset is committed. -/
structure Grows (w w' : World) : Prop where
  log : w.log <+: w'.log
  inbox : w.inbox <+: w'.inbox
  committed : w'.committed = w.committed

theorem grows_of_up {uuid : ℕ → String} {pid : ℕ} {w w' : World} {ev : CallEvent}
    (h : w.up uuid pid ev w') : w.Grows w' := by
  obtain ⟨call, r⟩ := ev
  obtain ⟨choice, h⟩ := h
  cases call with
  | sql c =>
      obtain ⟨⟨r', db⟩, -, heq⟩ := Option.map_eq_some_iff.mp h
      cases heq
      exact ⟨List.prefix_refl _, List.prefix_refl _, rfl⟩
  | repository c =>
      obtain ⟨⟨r', db⟩, -, heq⟩ := Option.map_eq_some_iff.mp h
      cases heq
      exact ⟨List.prefix_refl _, List.prefix_refl _, rfl⟩
  | produce topic key value headers =>
      cases h
      exact ⟨List.prefix_append _ _, List.prefix_refl _, rfl⟩
  | send provider recipient body options message =>
      cases h
      exact ⟨List.prefix_refl _, List.prefix_append _ _, rfl⟩
  | _ =>
      cases h
      exact ⟨List.prefix_refl _, List.prefix_refl _, rfl⟩

theorem grows_of_faulty {uuid : ℕ → String} {pid : ℕ} {w w' : World} {ev : CallEvent}
    (h : w.faulty uuid pid ev w') : w.Grows w' := by
  obtain h | ⟨-, rfl, -⟩ := h
  · exact grows_of_up h
  · exact ⟨List.prefix_refl _, List.prefix_refl _, rfl⟩

theorem grows_of_lossy {uuid : ℕ → String} {pid : ℕ} {w w' : World} {ev : CallEvent}
    (h : w.lossy uuid pid ev w') : w.Grows w' := by
  obtain ⟨r', h, -⟩ := effect_of_lossy h
  exact grows_of_faulty h

theorem events_grows {w w' : World} (h : w.log <+: w'.log) (topic : String) (partition : ℕ) :
    w.events topic partition <+: w'.events topic partition := by
  obtain ⟨records, hlog⟩ := h
  rw [World.events, World.events, ← hlog, List.filter_append, List.map_append]
  exact List.prefix_append _ _

theorem getElem?_events {w w' : World} (h : w.log <+: w'.log) {topic : String}
    {partition offset : ℕ} {value : Json}
    (hvalue : (w.events topic partition)[offset]? = some value) :
    (w'.events topic partition)[offset]? = some value :=
  Lookup.getElem?_of_grows (events_grows h topic partition) hvalue

end World

/-- Workers that answer every call from `answers`, in a group whose members may crash. -/
def consumers (answers : ℕ → Env Reply JsError World) (crashes : ℕ → World → World → Prop) :
    Machine Reply JsError Unit WorkerJob World where
  code := WorkerJob.code
  starts w job := match job with
    | .batch b => w.Offers b
    | .poll => True
  answers := answers
  crashes := crashes
  settles job _ w w' := match job with
    | .batch b => w' = w.commit b
    | .poll => False
  drifts := World.evolves

/-! ## Offsets and batches -/

/-- A message that carries a well-formed event. -/
def KafkaMessage.wellFormed (msg : KafkaMessage) : Bool :=
  match msg.parse with
  | .ok e => decide e.WellFormed
  | .error _ => false

namespace Consuming

/-- The well-formed events of a partition below an offset satisfy `φ`. -/
structure Upto (φ : World → ParsedKafkaMessage → Prop) (w : World) (topic : String)
    (partition bound : ℕ) : Prop where
  bounded : bound ≤ (w.events topic partition).length
  holds : ∀ offset value e, offset < bound → (w.events topic partition)[offset]? = some value →
    parseEvent value = .ok e → e.WellFormed → φ w e

/-- The messages of a batch are the records of its partition from `lo` on. -/
def Slice (w : World) (b : Batch) (lo : ℕ) : Prop :=
  ∀ i msg, b.messages[i]? = some msg → msg.offset = lo + i ∧
    ∃ value, msg.value = some (some value) ∧
      (w.events b.topic b.partition)[lo + i]? = some value

section Offsets

variable {φ : World → ParsedKafkaMessage → Prop} {w w' : World} {b : Batch}
  {topic : String} {partition bound lo : ℕ} {e : ParsedKafkaMessage}

theorem Upto.mono (h : Upto φ w topic partition bound) (log : w.log <+: w'.log)
    (keep : ∀ e, φ w e → φ w' e) : Upto φ w' topic partition bound := by
  have hprefix := World.events_grows log topic partition
  refine ⟨h.bounded.trans hprefix.length_le, fun offset value e hlt hvalue hparse hwell => ?_⟩
  obtain ⟨rest, heq⟩ := hprefix
  rw [← heq, List.getElem?_append_left (by have := h.bounded; omega)] at hvalue
  exact keep e (h.holds offset value e hlt hvalue hparse hwell)

theorem Upto.weaken {φ' : World → ParsedKafkaMessage → Prop} (h : Upto φ w topic partition bound)
    (weaker : ∀ e, φ w e → φ' w e) : Upto φ' w topic partition bound :=
  ⟨h.bounded, fun offset value e hlt hvalue hparse hwell =>
    weaker e (h.holds offset value e hlt hvalue hparse hwell)⟩

theorem Upto.le (h : Upto φ w topic partition bound) {bound' : ℕ} (hle : bound' ≤ bound) :
    Upto φ w topic partition bound' :=
  ⟨hle.trans h.bounded, fun offset value e hlt => h.holds offset value e (by omega)⟩

theorem Slice.mono (h : Slice w b lo) (log : w.log <+: w'.log) : Slice w' b lo := by
  intro i msg hmsg
  obtain ⟨hoffset, value, hvalue, hevent⟩ := h i msg hmsg
  exact ⟨hoffset, value, hvalue, World.getElem?_events log hevent⟩

theorem slice_of_fetch {n : ℕ} (h : b.messages = w.fetch b.topic b.partition lo n) :
    Slice w b lo := by
  intro i msg hmsg
  rw [h, World.fetch, List.getElem?_mapIdx, Option.map_eq_some_iff] at hmsg
  obtain ⟨value, hvalue, rfl⟩ := hmsg
  rw [List.getElem?_take, List.getElem?_drop] at hvalue
  split at hvalue
  · exact ⟨rfl, value, rfl, hvalue⟩
  · cases hvalue

/-- Once the events of a batch satisfy `φ`, so do all events below its end. -/
theorem Upto.commit (h : Upto φ w b.topic b.partition lo) (slice : Slice w b lo)
    {last : KafkaMessage} (hlast : b.messages.getLast? = some last)
    (batch : ∀ msg ∈ b.messages, ∀ e, msg.parse = .ok e → e.WellFormed → φ w e) :
    Upto φ w b.topic b.partition (last.offset + 1) := by
  have hlen : b.messages[b.messages.length - 1]? = some last := by
    rw [← List.getLast?_eq_getElem?, hlast]
  have hne : b.messages.length ≠ 0 := by
    intro hzero
    rw [List.length_eq_zero_iff] at hzero
    rw [hzero] at hlast
    cases hlast
  obtain ⟨hoffset, value, -, hevent⟩ := slice _ _ hlen
  have hbound := (List.getElem?_eq_some_iff.mp hevent).1
  refine ⟨by omega, fun offset value e hlt hvalue hparse hwell => ?_⟩
  by_cases hlo : offset < lo
  · exact h.holds offset value e hlo hvalue hparse hwell
  · have hindex : offset - lo < b.messages.length := by omega
    obtain ⟨-, value', hvalue', hevent'⟩ := slice _ _ (List.getElem?_eq_getElem hindex)
    rw [show lo + (offset - lo) = offset by omega, hvalue] at hevent'
    cases hevent'
    refine batch _ (List.getElem_mem hindex) e ?_ hwell
    rw [KafkaMessage.parse, hvalue']
    exact hparse

/-! ## The events of a batch -/

theorem exists_of_wellFormed {msg : KafkaMessage} (h : msg.wellFormed = true) :
    ∃ e, msg.parse = .ok e ∧ e.WellFormed := by
  unfold KafkaMessage.wellFormed at h
  split at h
  · next e he => exact ⟨e, he, of_decide_eq_true h⟩
  · cases h

/-- The events of a batch of well-formed messages are its messages' events. -/
theorem mem_entries (h : ∀ msg ∈ b.messages, msg.wellFormed = true) :
    e ∈ entries b ↔ ∃ msg ∈ b.messages, msg.parse = .ok e := by
  obtain ⟨es, hes⟩ := mapM_parse_ok fun msg member =>
    (exists_of_wellFormed (h msg member)).imp fun _ => And.left
  rw [entries, hes]
  exact mem_of_mapM_parse hes

theorem wellFormed_of_mem_entries (h : ∀ msg ∈ b.messages, msg.wellFormed = true)
    (he : e ∈ entries b) : e.WellFormed := by
  obtain ⟨msg, member, hparse⟩ := (mem_entries h).mp he
  obtain ⟨e', hparse', hwell⟩ := exists_of_wellFormed (h msg member)
  rw [hparse] at hparse'
  cases hparse'
  exact hwell

end Offsets

/-! ## Batches that the group can cope with -/

/-- The well-formed messages of a batch stand alone, and its joined keys tell pairs apart. -/
def Uniform (b : Batch) : Prop :=
  ((∀ msg ∈ b.messages, msg.wellFormed = true) ∨ ∀ msg ∈ b.messages, msg.wellFormed = false) ∧
  ∀ e ∈ entries b, ∀ e' ∈ entries b, e.WellFormed → e'.WellFormed →
    e.toCheck.key = e'.toCheck.key → e.asMessage.pair = e'.asMessage.pair

instance (b : Batch) : Decidable (Uniform b) := inferInstanceAs (Decidable (_ ∧ _))

/-- Well-formed events with one `messageId` have one pair. -/
def SameEvent (e e' : ParsedKafkaMessage) : Prop :=
  e.WellFormed → e'.WellFormed → e.messageId = e'.messageId →
    e.asMessage.pair = e'.asMessage.pair

instance (e e' : ParsedKafkaMessage) : Decidable (SameEvent e e') :=
  inferInstanceAs (Decidable (_ → _))

/-- The events that have been handed to workers. -/
def handed (s : Workers) : List ParsedKafkaMessage :=
  s.procs.flatMap fun P => entries P.job.toBatch

/-- A batch may be handed to a worker without harm. -/
def admits (s : Workers) (b : Batch) : Bool :=
  decide (Uniform b) && decide (∀ e ∈ entries b, ∀ e' ∈ handed s ++ entries b, SameEvent e e')

theorem SameEvent.symm {e e' : ParsedKafkaMessage} (h : SameEvent e e') : SameEvent e' e :=
  fun hwell' hwell hid => (h hwell hwell' hid.symm).symm

theorem messageId_of_wellFormed {e : ParsedKafkaMessage} (h : e.WellFormed) :
    e.messageId = some e.asMessage.messageId := by
  obtain ⟨-, -, -, -, hid, -⟩ := ident_of_wellFormed h
  exact hid

theorem SameEvent.pair {e e' : ParsedKafkaMessage} (h : SameEvent e e') (hwell : e.WellFormed)
    (hwell' : e'.WellFormed) (hid : e.asMessage.messageId = e'.asMessage.messageId) :
    e.asMessage.pair = e'.asMessage.pair :=
  h hwell hwell' (by rw [messageId_of_wellFormed hwell, messageId_of_wellFormed hwell', hid])

/-- The group is in order: what is committed satisfies `φ`, and the workers' batches go on
from there. -/
structure InOrder (φ : World → ParsedKafkaMessage → Prop) (s : Workers) : Prop where
  committed : ∀ topic ∈ topics, ∀ partition,
    Upto φ s.shared topic partition (s.shared.committed topic partition)
  jobs : ∀ P ∈ s.procs, ∀ b, P.job = .batch b → b.topic ∈ topics ∧ Uniform b ∧
    ∃ lo, Upto φ s.shared b.topic b.partition lo ∧ Slice s.shared b lo
  identified : ∀ e ∈ handed s, ∀ e' ∈ handed s, SameEvent e e'

section InOrder

variable {φ : World → ParsedKafkaMessage → Prop} {s s' : Workers} {b : Batch} {shared : World}
  {pid : ℕ} {P : WorkerProc}

theorem mem_handed {e : ParsedKafkaMessage} :
    e ∈ handed s ↔ ∃ P ∈ s.procs, e ∈ entries P.job.toBatch := List.mem_flatMap

/-- What has been handed out stays so. -/
theorem handed_step {M : Machine Reply JsError Unit WorkerJob World}
    {a : Action Reply JsError WorkerJob} (step : M.Step s a s') {e : ParsedKafkaMessage}
    (h : e ∈ handed s) : e ∈ handed s' := by
  obtain ⟨P, hP, he⟩ := mem_handed.mp h
  obtain ⟨pid, hP⟩ := List.mem_iff_getElem?.mp hP
  obtain ⟨P', hP', hjob, -⟩ := step.proc_stays hP
  exact mem_handed.mpr ⟨P', List.mem_of_getElem? hP', hjob ▸ he⟩

theorem InOrder.weaken {φ' : World → ParsedKafkaMessage → Prop} (h : InOrder φ s)
    (weaker : ∀ e, φ s.shared e → φ' s.shared e) : InOrder φ' s := by
  refine ⟨fun topic htopic partition => (h.committed topic htopic partition).weaken weaker,
    fun P hP b hb => ?_, h.identified⟩
  obtain ⟨htopic, uniform, lo, upto, slice⟩ := h.jobs P hP b hb
  exact ⟨htopic, uniform, lo, upto.weaken weaker, slice⟩

/-- A step that starts no worker and commits nothing. -/
theorem InOrder.keep (h : InOrder φ s) (log : s.shared.log <+: s'.shared.log)
    (committed : s'.shared.committed = s.shared.committed)
    (procs : ∀ P' ∈ s'.procs, ∃ P ∈ s.procs, P.job = P'.job)
    (keep : ∀ e, φ s.shared e → φ s'.shared e) : InOrder φ s' := by
  have old {e : ParsedKafkaMessage} (he : e ∈ handed s') : e ∈ handed s := by
    obtain ⟨P', hP', he⟩ := mem_handed.mp he
    obtain ⟨P, hP, hjob⟩ := procs P' hP'
    exact mem_handed.mpr ⟨P, hP, hjob ▸ he⟩
  refine ⟨fun topic htopic partition => ?_, fun P' hP' b hb => ?_, fun e he e' he' =>
    h.identified e (old he) e' (old he')⟩
  · rw [committed]
    exact (h.committed topic htopic partition).mono log keep
  · obtain ⟨P, hP, hjob⟩ := procs P' hP'
    obtain ⟨htopic, uniform, lo, upto, slice⟩ := h.jobs P hP b (hjob.trans hb)
    exact ⟨htopic, uniform, lo, upto.mono log keep, slice.mono log⟩

theorem InOrder.start (h : InOrder φ s) {job : WorkerJob} {code : Prog Unit}
    (offers : ∀ b, job = .batch b → s.shared.Offers b)
    (admitted : ∀ b, job = .batch b → admits s b = true) : InOrder φ (s.spawn job code) := by
  refine ⟨h.committed, fun P hP b hb => ?_, ?_⟩
  · cases List.mem_append.mp hP with
    | inl hP => exact h.jobs P hP b hb
    | inr hP =>
        rw [List.mem_singleton.mp hP] at hb
        obtain ⟨htopic, -, lo, n, hlo, hfetch⟩ := offers b hb
        have uniform := (Bool.and_eq_true_iff.mp (admitted b hb)).1
        exact ⟨htopic, of_decide_eq_true uniform, lo,
          (h.committed b.topic htopic b.partition).le hlo, slice_of_fetch hfetch⟩
  · have new {e : ParsedKafkaMessage} (he : e ∈ handed (s.spawn job code)) :
        e ∈ handed s ∨ e ∈ entries job.toBatch := by
      simpa [handed, Pool.spawn] using he
    have fits {e e' : ParsedKafkaMessage} (he : e ∈ entries job.toBatch)
        (he' : e' ∈ handed s ∨ e' ∈ entries job.toBatch) : SameEvent e e' := by
      cases job with
      | poll => cases he
      | batch b =>
          have same := of_decide_eq_true (Bool.and_eq_true_iff.mp (admitted b rfl)).2
          exact same e he e' (List.mem_append.mpr he')
    intro e he e' he'
    cases new he with
    | inl he =>
        cases new he' with
        | inl he' => exact h.identified e he e' he'
        | inr he' => exact (fits he' (.inl he)).symm
    | inr he => exact fits he (new he')

theorem InOrder.settle (h : InOrder φ s) (hP : P ∈ s.procs) (hjob : P.job = .batch b)
    (batch : ∀ msg ∈ b.messages, ∀ e, msg.parse = .ok e → e.WellFormed → φ s.shared e)
    (keep : ∀ e, φ s.shared e → φ (s.shared.commit b) e) :
    InOrder φ { s with shared := s.shared.commit b } := by
  have log : s.shared.log <+: (s.shared.commit b).log := by
    unfold World.commit
    split <;> exact List.prefix_refl _
  refine ⟨fun topic htopic partition => ?_, fun P' hP' b' hb' => ?_, h.identified⟩
  · have old := (h.committed topic htopic partition).mono log keep
    obtain ⟨-, -, lo, upto, slice⟩ := h.jobs P hP b hjob
    cases hlast : b.messages.getLast? with
    | none =>
        rw [show s.shared.commit b = s.shared by rw [World.commit, hlast]] at old ⊢
        exact old
    | some last =>
        have hcommitted : (s.shared.commit b).committed topic partition =
            if topic = b.topic ∧ partition = b.partition then last.offset + 1
            else s.shared.committed topic partition := by rw [World.commit, hlast]
        change Upto φ (s.shared.commit b) topic partition
          ((s.shared.commit b).committed topic partition)
        rw [hcommitted]
        split
        · next heq =>
            rw [heq.1, heq.2]
            exact (upto.commit slice hlast batch).mono log keep
        · exact old
  · obtain ⟨htopic, uniform, lo, upto, slice⟩ := h.jobs P' hP' b' hb'
    exact ⟨htopic, uniform, lo, upto.mono log keep, slice.mono log⟩

end InOrder

/-! ## What the bulk query finds -/

section BulkSelect

variable {db : Database} {b : Batch} {r : MessageRow} {e : ParsedKafkaMessage}

/-- The row of a well-formed event that asks for it. -/
theorem pair_of_asked (hwell : e.WellFormed) (htenant : e.tenantId = some r.tenantId)
    (hkey : e.effectiveKey = some r.idempotencyKey) :
    r.pair = e.asMessage.pair ∧ r.key = e.toCheck.key := by
  obtain ⟨-, -, -, -, -, htenant', hkey'⟩ := ident_of_wellFormed hwell
  rw [htenant] at htenant'
  rw [hkey] at hkey'
  constructor
  · rw [MessageRow.pair, MessageToDeliver.pair, Option.some.inj htenant', Option.some.inj hkey']
  · show joinedKey _ _ = joinedKey e.tenantId e.effectiveKey
    rw [htenant, hkey]

/-- The bulk query only returns rows of pairs that the batch asks for. -/
theorem asked_of_answered {uuid : ℕ → String} {pid : ℕ} {w w' : World} {ev : CallEvent}
    {before : Trace Reply JsError} (answer : w.up uuid pid ev w') (may : MayConsume b ev before)
    (hr : r ∈ answeredRows ev) : r ∈ w.db.messages ∧ ∃ e ∈ entries b,
      e.tenantId = some r.tenantId ∧ e.effectiveKey = some r.idempotencyKey := by
  obtain ⟨choice, answer⟩ := answer
  unfold answeredRows at hr
  split at hr
  · next columns keyColumns keys rows =>
      obtain ⟨heq, -⟩ := may
      unfold bulkSelect BatchIdempotencyService.selectExisting at heq
      cases heq
      simp only [World.answer, Database.answer, Database.execute] at answer
      split at answer
      · cases answer
      · cases answer
        rw [BatchIdempotencyService.selectMessages_eq, List.mem_filter, decide_eq_true_eq] at hr
        obtain ⟨hrow, hkey⟩ := hr
        obtain ⟨m, hm, hpair⟩ := BatchIdempotencyService.mem_extractUnique hkey
        obtain ⟨e, he, rfl⟩ := List.mem_map.mp hm
        exact ⟨hrow, e, he, (Prod.mk.inj hpair).1.symm, (Prod.mk.inj hpair).2.symm⟩
  · cases hr

end BulkSelect

end Consuming

end Notification
