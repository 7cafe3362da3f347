import Mathlib.Data.List.Find
import Notification.Aggregator.Handling
import Notification.Aggregator.Replay
import Notification.Aggregator.Trail

/-!
# Bad events in a batch

The whole batch is parsed, checked and inserted at once, so a bad event decides about the
others. What a batch does for its healthy events is compared with what they do alone: the
events that the batch leaves out must come to nothing there as well.
-/

namespace Notification

open Interaction Program BatchIdempotencyService

/-! ## Healthy events -/

/-- The event of a message that does not fail on its own account: it is parsed, and the
schema accepts its row. -/
def KafkaMessage.healthy? (msg : KafkaMessage) : Option ParsedKafkaMessage :=
  match msg.parse with
  | .ok e => if e.WellFormed then some e else none
  | .error _ => none

namespace Batch

variable {b : Batch} {es : List ParsedKafkaMessage}

/-- The batch without its bad events. -/
def healthy (b : Batch) : Batch :=
  { b with messages := b.messages.filter fun msg => msg.healthy?.isSome }

def healthyEvents (b : Batch) : List ParsedKafkaMessage :=
  b.messages.filterMap KafkaMessage.healthy?

theorem mapM_parse_cons {msg : KafkaMessage} {messages : List KafkaMessage}
    {e : ParsedKafkaMessage} (h : msg.parse = .ok e) : (msg :: messages).mapM KafkaMessage.parse =
      (messages.mapM KafkaMessage.parse).map (e :: ·) := by
  rw [List.mapM_cons, h]
  cases messages.mapM KafkaMessage.parse <;> rfl

theorem wellFormed_of_healthy {e : ParsedKafkaMessage} (h : e ∈ b.healthyEvents) :
    e.WellFormed := by
  obtain ⟨msg, -, hmsg⟩ := List.mem_filterMap.mp h
  unfold KafkaMessage.healthy? at hmsg
  split at hmsg
  · split at hmsg
    · next hwell =>
      cases hmsg
      exact hwell
    · cases hmsg
  · cases hmsg

theorem parse_healthy : b.healthy.messages.mapM KafkaMessage.parse = .ok b.healthyEvents := by
  simp only [healthy, healthyEvents]
  induction b.messages with
  | nil => rfl
  | cons msg rest ih =>
      cases hmsg : msg.healthy? with
      | none =>
          rw [List.filter_cons_of_neg (by simp [hmsg]), List.filterMap_cons_none hmsg, ih]
      | some e =>
          have hparse : msg.parse = .ok e := by
            unfold KafkaMessage.healthy? at hmsg
            split at hmsg
            · next hparse =>
              split at hmsg
              · cases hmsg
                exact hparse
              · cases hmsg
            · cases hmsg
          rw [List.filter_cons_of_pos (by simp [hmsg]), List.filterMap_cons_some hmsg,
            mapM_parse_cons hparse, ih]
          rfl

theorem healthyEvents_of_parsed (h : b.messages.mapM KafkaMessage.parse = .ok es) :
    b.healthyEvents = es.filter fun e => e.WellFormed := by
  rw [healthyEvents]
  generalize b.messages = messages at h
  induction messages generalizing es with
  | nil =>
      cases h
      rfl
  | cons msg rest ih =>
      cases hmsg : msg.parse with
      | error error =>
          rw [List.mapM_cons, hmsg] at h
          cases h
      | ok e =>
          rw [mapM_parse_cons hmsg] at h
          cases hrest : rest.mapM KafkaMessage.parse with
          | error error =>
              rw [hrest] at h
              cases h
          | ok es₀ =>
              rw [hrest] at h
              cases h
              by_cases hwell : e.WellFormed
              · rw [List.filterMap_cons_some
                  (by rw [KafkaMessage.healthy?, hmsg]; exact if_pos hwell),
                  List.filter_cons_of_pos (by simpa using hwell), ih hrest]
              · rw [List.filterMap_cons_none
                  (by rw [KafkaMessage.healthy?, hmsg]; exact if_neg hwell),
                  List.filter_cons_of_neg (by simpa using hwell), ih hrest]

end Batch

namespace Worker

section Healthy

variable {w : World} {b : Batch} {es : List ParsedKafkaMessage} {e e' : ParsedKafkaMessage}

/-- Alone, the healthy events get to their deliveries. -/
theorem prepared_healthy (w : World) (b : Batch) : Prepared w.db b.healthy b.healthyEvents where
  parsed := Batch.parse_healthy
  queried _ := selectExisting_check fun m hm => by
    obtain ⟨e, he, rfl⟩ := List.mem_map.mp hm
    exact Consuming.keyed_of_wellFormed (Batch.wellFormed_of_healthy he)
  stored _ he := Batch.wellFormed_of_healthy (List.mem_filter.mp he).1

theorem isNew_congr (h : e.toCheck.key = e'.toCheck.key) : IsNew w es e ↔ IsNew w es e' := by
  rw [IsNew, IsNew, h]

/-- What the check finds for an event, by the first one with its joined key. -/
theorem not_isNew_iff (member : e ∈ es) : ¬ IsNew w es e ↔
    ∃ r ∈ w.db.messages, some r.name = Lookup.representative joined
      ((es.map ParsedKafkaMessage.toCheck).map MessageToCheckIdempotency.name) e.toCheck.name := by
  obtain ⟨n₀, -, hfirst⟩ := Lookup.exists_representative joined
    (List.mem_map_of_mem (f := MessageToCheckIdempotency.name)
      (List.mem_map_of_mem (f := ParsedKafkaMessage.toCheck) member))
  rw [IsNew, existingFor_rowsFor, hfirst, Option.isNone_iff_eq_none, ← ne_eq,
    ← Option.isSome_iff_ne_none, Lookup.answerFor_isSome hfirst]
  simp only [Option.some.injEq]

/-- An event that is new among all events is new among the healthy ones: the events with its
joined key are new as well, so they are healthy. -/
theorem isNew_healthy (h : Prepared w.db b es) (member : e ∈ es) (new : IsNew w es e) :
    IsNew w (es.filter fun e => e.WellFormed) e := by
  have wellFormed : ∀ x ∈ es, x.toCheck.key = e.toCheck.key → x.WellFormed := fun x hx hkey =>
    h.stored x (List.mem_filter.mpr ⟨hx, (isNew_congr hkey).mpr new⟩)
  have healthy : e ∈ es.filter fun e => e.WellFormed :=
    List.mem_filter.mpr ⟨member, by simpa using wellFormed e member rfl⟩
  by_contra old
  rw [not_isNew_iff healthy] at old
  refine (not_isNew_iff member).mpr ?_ new
  have hfirst : Lookup.representative joined (((es.filter fun e => e.WellFormed).map
      ParsedKafkaMessage.toCheck).map MessageToCheckIdempotency.name) e.toCheck.name =
      Lookup.representative joined ((es.map ParsedKafkaMessage.toCheck).map
        MessageToCheckIdempotency.name) e.toCheck.name := by
    simp only [Lookup.representative, List.find?_map, List.find?_filter]
    congr 2
    refine List.find?_congr fun x hx => ?_
    have hwell := wellFormed x hx
    rw [Bool.eq_iff_iff]
    simp only [Function.comp, decide_eq_true_eq]
    exact and_iff_right_of_imp hwell
  rwa [hfirst] at old

/-- An event that is skipped among the healthy ones is skipped among all events. -/
theorem skipped_of_healthy (h : Prepared w.db b es)
    (skipped : Skipped (duplicatesOf w.db (es.filter fun e => e.WellFormed)) e) :
    Skipped (duplicatesOf w.db es) e := by
  obtain ⟨m, hm, hid, hfound⟩ := exists_duplicate_iff.mp skipped
  obtain ⟨x, hx, rfl⟩ := List.mem_map.mp hm
  refine exists_duplicate_iff.mpr
    ⟨x.toCheck, List.mem_map_of_mem (List.mem_filter.mp hx).1, hid, ?_⟩
  by_contra hnot
  have new : IsNew w es x := by simpa [IsNew] using hnot
  have := isNew_healthy h (List.mem_filter.mp hx).1 new
  rw [IsNew, Option.isNone_iff_eq_none] at this
  rw [this] at hfound
  cases hfound

theorem newEvents_eq_filter (h : Prepared w.db b es) : newEvents w.db es =
    (newEvents w.db (es.filter fun e => e.WellFormed)).filter fun e => IsNew w es e := by
  simp only [newEvents, Consuming.fresh, List.filter_filter]
  apply List.filter_congr
  intro e he
  rw [Bool.eq_iff_iff]
  simp only [Bool.and_eq_true, decide_eq_true_eq]
  refine ⟨fun new => ⟨new, isNew_healthy h he new, ?_⟩, fun hall => hall.1⟩
  exact h.stored e (List.mem_filter.mpr ⟨he, new⟩)

theorem unskipped_eq_filter (h : Prepared w.db b es) : unskipped (duplicatesOf w.db es) es =
    (unskipped (duplicatesOf w.db (es.filter fun e => e.WellFormed))
      (es.filter fun e => e.WellFormed)).filter fun e => ¬ Skipped (duplicatesOf w.db es) e := by
  simp only [unskipped, List.filter_filter]
  apply List.filter_congr
  intro e he
  rw [Bool.eq_iff_iff]
  simp only [Bool.and_eq_true, decide_eq_true_eq]
  refine ⟨fun tried => ⟨tried, fun skipped => tried (skipped_of_healthy h skipped), ?_⟩,
    fun hall => hall.1⟩
  by_contra bad
  refine tried (skipped_of_not_new he fun new => bad ?_)
  exact h.stored e (List.mem_filter.mpr ⟨he, new⟩)

end Healthy

/-! ## Leaving events out -/

section LeaveOut

variable {p q : ParsedKafkaMessage → Bool} {rows : List MessageRow}
  {es : List ParsedKafkaMessage}

/-- Events whose rows are refused anyway can be left out. -/
theorem insertable_filter (refused : ∀ before e after, es = before ++ e :: after → p e = false →
      (rows ++ (insertable rows before).map ParsedKafkaMessage.newRow).any
        e.newRow.clashes = true) :
    insertable rows (es.filter p) = insertable rows es := by
  induction es generalizing rows with
  | nil => rfl
  | cons e es ih =>
      have hclash (out : p e = false) : rows.any e.newRow.clashes = true := by
        simpa [insertable] using refused [] e es rfl out
      have hrest (before : List ParsedKafkaMessage) (x : ParsedKafkaMessage)
          (after : List ParsedKafkaMessage) (split : es = before ++ x :: after)
          (out : p x = false) := refused (e :: before) x after (by rw [split, List.cons_append]) out
      simp only [insertable] at hrest ⊢
      by_cases hp : p e = true
      · rw [List.filter_cons_of_pos hp, insertable]
        split
        · next hrefused =>
            exact ih fun before x after => by simpa [hrefused] using hrest before x after
        · next hstored =>
          rw [ih fun before x after => ?_]
          simpa [hstored] using hrest before x after
      · rw [List.filter_cons_of_neg hp, if_pos (hclash (by simpa using hp))]
        exact ih fun before x after => by
          simpa [hclash (by simpa using hp)] using hrest before x after

/-- If leaving events out does not change what is stored, their rows are refused. -/
theorem refused_of_idents (wellFormed : ∀ e ∈ es, e.WellFormed)
    (same : ∀ e ∈ es, ∀ e' ∈ es, e.asMessage.pair = e'.asMessage.pair → p e = p e')
    (idents : (insertable rows (es.filter p)).map (MessageRow.ident ∘ ParsedKafkaMessage.newRow) =
      (insertable rows es).map (MessageRow.ident ∘ ParsedKafkaMessage.newRow))
    {before after : List ParsedKafkaMessage} {e : ParsedKafkaMessage}
    (split : es = before ++ e :: after) (out : p e = false) :
    (rows ++ (insertable rows before).map ParsedKafkaMessage.newRow).any e.newRow.clashes =
      true := by
  have member : e ∈ es := by simp [split]
  by_contra hfree
  have stored : e ∈ insertable rows es := by
    rw [split, insertable_append, insertable, if_neg hfree]
    simp
  obtain ⟨e', he', hident⟩ := List.mem_map.mp (idents ▸ List.mem_map_of_mem stored)
  obtain ⟨member', hp⟩ := List.mem_filter.mp (mem_of_insertable he').1
  rw [Function.comp, Function.comp, newRow_ident (wellFormed e' member'),
    newRow_ident (wellFormed e member), MessageToDeliver.ident, MessageToDeliver.ident,
    Prod.mk.injEq, Prod.mk.injEq] at hident
  rw [same e' member' e member hident.2.1, out] at hp
  cases hp

end LeaveOut

section Batches

variable {R : IDeliveryRepository} {reads : Bool} {uuid : ℕ → String} {choose : World → Choice}
  {w out : World} {b : Batch} {p q : ParsedKafkaMessage → Bool}

theorem goneBy_withRows (es : List ParsedKafkaMessage) (pre : List ParsedKafkaMessage)
    (e : ParsedKafkaMessage) (channel : String) :
    GoneBy reads channel (w.withRows (es.map ParsedKafkaMessage.newRow)) pre e ↔
      GoneBy reads channel w pre e := by
  simp only [GoneBy, FoundAfter, finallyDelivered_withRows]
  rfl

/-- A batch that only inserts the events in `p` and only tries those in `q` does the same as
the healthy events alone if the others come to nothing. -/
theorem sameEffects_healthy_iff (delivers : R.Delivers reads) (quiescent : w.db.Quiescent)
    (pairs : ∀ e ∈ b.healthyEvents, ∀ e' ∈ b.healthyEvents,
      e.asMessage.pair = e'.asMessage.pair → p e = p e')
    (messageIds : ∀ e ∈ b.healthyEvents, ∀ e' ∈ b.healthyEvents,
      e.asMessage.messageId = e'.asMessage.messageId → q e = q e')
    (effects : SameEffects out
      (((unskipped (duplicatesOf w.db b.healthyEvents) b.healthyEvents).filter q).foldl
        (afterEvent R uuid choose (channelOf b.topic))
        (w.withRows ((insertable w.db.messages ((newEvents w.db b.healthyEvents).filter p)).map
          ParsedKafkaMessage.newRow)))) :
    SameEffects out ((eachBatch R b.healthy).run (World.handler uuid choose) w).2 ↔
      (∀ before e after, newEvents w.db b.healthyEvents = before ++ e :: after → p e = false →
        (w.db.messages ++ (insertable w.db.messages before).map ParsedKafkaMessage.newRow).any
          e.newRow.clashes = true) ∧
      ∀ before e after, unskipped (duplicatesOf w.db b.healthyEvents) b.healthyEvents =
        before ++ e :: after → q e = false → GoneBy reads (channelOf b.topic) w before e := by
  have alone := effects_of_prepared R uuid choose quiescent (prepared_healthy w b)
  have memNew {e : ParsedKafkaMessage} (h : e ∈ newEvents w.db b.healthyEvents) :
      e ∈ b.healthyEvents := (List.mem_filter.mp h).1
  have memTried {e : ParsedKafkaMessage}
      (h : e ∈ unskipped (duplicatesOf w.db b.healthyEvents) b.healthyEvents) :
      e ∈ b.healthyEvents := (List.mem_filter.mp h).1
  have idle (es : List ParsedKafkaMessage) :
      (w.withRows (es.map ParsedKafkaMessage.newRow)).db.pending = [] := quiescent.pending
  constructor
  · intro same
    have folds := (effects.symm.trans same).trans alone
    have refused : ∀ before e after, newEvents w.db b.healthyEvents = before ++ e :: after →
        p e = false → (w.db.messages ++ (insertable w.db.messages before).map
          ParsedKafkaMessage.newRow).any e.newRow.clashes = true := by
      intro before e after
      refine refused_of_idents (fun e he => Batch.wellFormed_of_healthy (memNew he))
        (fun e he e' he' => pairs e (memNew he) e' (memNew he')) ?_
      obtain ⟨_, -, trail⟩ := (Trail.start (idle (insertable w.db.messages
        ((newEvents w.db b.healthyEvents).filter p)))).run delivers uuid choose
        ((unskipped (duplicatesOf w.db b.healthyEvents) b.healthyEvents).filter q)
      obtain ⟨_, -, trail'⟩ := (Trail.start (idle (storedEvents w.db b.healthyEvents))).run
        delivers uuid choose (unskipped (duplicatesOf w.db b.healthyEvents) b.healthyEvents)
      have idents := trail.idents.symm.trans
        ((congrArg (fun db => db.messages.map MessageRow.ident) folds.db).trans trail'.idents)
      simpa [World.withRows, storedEvents] using idents
    refine ⟨refused, fun before e after split out => ?_⟩
    rw [insertable_filter refused] at folds
    apply (goneBy_withRows (storedEvents w.db b.healthyEvents) before e _).mp
    exact goneBy_of_inbox delivers uuid choose (idle _)
      (fun e he e' he' => messageIds e (memTried he) e' (memTried he')) folds.inbox split out
  · rintro ⟨refused, gone⟩
    have hfold := (Trail.start (idle (storedEvents w.db b.healthyEvents))).foldl_filter delivers
      uuid choose (fun _ h => absurd h List.not_mem_nil) (fun _ he => he)
      (fun e he e' he' => messageIds e (memTried he) e' (memTried he'))
      fun before e after split out => (goneBy_withRows _ _ e _).mpr (gone before e after split out)
    rw [storedEvents] at hfold
    rw [insertable_filter refused, hfold] at effects
    exact effects.trans alone.symm

/-- The batch takes the event for new. -/
def Takes (w : World) (b : Batch) (e : ParsedKafkaMessage) : Prop :=
  ∃ es, Prepared w.db b es ∧ IsNew w es e

/-- The delivery loop of the batch does not skip the event. -/
def Tries (w : World) (b : Batch) (e : ParsedKafkaMessage) : Prop :=
  ∃ es, Prepared w.db b es ∧ ¬ Skipped (duplicatesOf w.db es) e

/-- The healthy events that the batch leaves out come to nothing without the bad ones. If
they are new then, the unique keys refuse their rows; if they are not skipped then, the loop
goes past them. -/
structure Isolated (reads : Bool) (w : World) (b : Batch) : Prop where
  refused : ∀ before e after, newEvents w.db b.healthyEvents = before ++ e :: after →
    ¬ Takes w b e →
      (w.db.messages ++ (insertable w.db.messages before).map ParsedKafkaMessage.newRow).any
        e.newRow.clashes = true
  passed : ∀ before e after, unskipped (duplicatesOf w.db b.healthyEvents) b.healthyEvents =
    before ++ e :: after → ¬ Tries w b e → GoneBy reads (channelOf b.topic) w before e

theorem sameEffects_iff_isolated (delivers : R.Delivers reads) (uuid : ℕ → String)
    (choose : World → Choice) (b : Batch) (quiescent : w.db.Quiescent) :
    SameEffects ((eachBatch R b).run (World.handler uuid choose) w).2
      ((eachBatch R b.healthy).run (World.handler uuid choose) w).2 ↔ Isolated reads w b := by
  by_cases hprepared : ∃ es, Prepared w.db b es
  · obtain ⟨es, h⟩ := hprepared
    have hhealthy := Batch.healthyEvents_of_parsed h.parsed
    have unique {es' : List ParsedKafkaMessage} (h' : Prepared w.db b es') : es' = es :=
      Except.ok.inj (h'.parsed.symm.trans h.parsed)
    have takes (e : ParsedKafkaMessage) : Takes w b e ↔ IsNew w es e := by
      constructor
      · rintro ⟨_, h', new⟩
        exact unique h' ▸ new
      · exact fun new => ⟨es, h, new⟩
    have tries (e : ParsedKafkaMessage) :
        Tries w b e ↔ ¬ Skipped (duplicatesOf w.db es) e := by
      constructor
      · rintro ⟨_, h', tried⟩
        exact unique h' ▸ tried
      · exact fun tried => ⟨es, h, tried⟩
    have effects := effects_of_prepared R uuid choose quiescent h
    rw [storedEvents, newEvents_eq_filter h, unskipped_eq_filter h, ← hhealthy] at effects
    rw [sameEffects_healthy_iff delivers quiescent (fun e he e' he' hpair => ?_)
      (fun e he e' he' hid => ?_) effects]
    · simp only [decide_eq_false_iff_not, ← takes, ← tries]
      exact ⟨fun h => ⟨h.1, h.2⟩, fun h => ⟨h.refused, h.passed⟩⟩
    · exact decide_eq_decide.mpr
        (isNew_congr (Consuming.key_of_pair (Batch.wellFormed_of_healthy he)
        (Batch.wellFormed_of_healthy he') hpair))
    · refine decide_eq_decide.mpr (not_congr ?_)
      rw [Skipped, Skipped, Consuming.messageId_of_asMessage (Batch.wellFormed_of_healthy he)
        (Batch.wellFormed_of_healthy he') hid]
  · have none (es : List ParsedKafkaMessage) : ¬ Prepared w.db b es := fun h => hprepared ⟨es, h⟩
    have notTaken (e : ParsedKafkaMessage) : ¬ Takes w b e := by
      rintro ⟨es, h, -⟩
      exact none es h
    have notTried (e : ParsedKafkaMessage) : ¬ Tries w b e := by
      rintro ⟨es, h, -⟩
      exact none es h
    have effects : SameEffects ((eachBatch R b).run (World.handler uuid choose) w).2
        (((unskipped (duplicatesOf w.db b.healthyEvents) b.healthyEvents).filter
          fun _ => false).foldl (afterEvent R uuid choose (channelOf b.topic))
          (w.withRows ((insertable w.db.messages ((newEvents w.db b.healthyEvents).filter
            fun _ => false)).map ParsedKafkaMessage.newRow))) := by
      rw [run_eachBatch_of_unprepared uuid choose quiescent none, List.filter_false,
        List.filter_false]
      exact ⟨rfl, by simp [World.withRows, insertable], rfl⟩
    rw [sameEffects_healthy_iff delivers quiescent (fun _ _ _ _ _ => rfl) (fun _ _ _ _ _ => rfl)
      effects]
    refine ⟨fun h => ⟨fun before e after split _ => h.1 before e after split rfl,
      fun before e after split _ => h.2 before e after split rfl⟩, fun h => ⟨?_, ?_⟩⟩
    · exact fun before e after split _ => h.refused before e after split (notTaken e)
    · exact fun before e after split _ => h.passed before e after split (notTried e)

end Batches

section Sample

/-- A message, and a value that is no JSON. -/
def poisonedBatch : Batch :=
  ⟨"messages.sms", 0, [⟨0, some (some sampleMessage.event)⟩, ⟨1, some none⟩]⟩

/-- A replayed event that lacks most of its fields, and a new message. -/
def replayedBatch : Batch :=
  ⟨"messages.sms", 0, [eventOf "m-1" "tenant-1" "key-1",
    ⟨8, some (some { sampleMessage with
      messageId := "m-2", dedupKey := "d-2", idempotencyKey := some "key-2" }.event)⟩]⟩

/-- `sampleMessage` is delivered. -/
def replayedWorld : World := { db := { messages := [DeliveryProcessorService.deliveredRow] } }

end Sample

end Worker

end Notification
