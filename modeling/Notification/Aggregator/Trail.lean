import Notification.Aggregator.Agreement

/-!
# The deliveries of a batch as a fold

The delivery loop never throws, and what it does about an event only depends on the world it
finds. Of the events before, that world tells which keys are set and which rows have changed.
-/

namespace Notification

open Interaction Program BatchIdempotencyService

/-- The provider calls, the tables and Redis are the same. -/
structure SameEffects (w w' : World) : Prop where
  inbox : w.inbox = w'.inbox
  db : w.db = w'.db
  redis : w.redis = w'.redis

theorem SameEffects.symm {w w' : World} (h : SameEffects w w') : SameEffects w' w :=
  ⟨h.inbox.symm, h.db.symm, h.redis.symm⟩

theorem SameEffects.trans {w w' w'' : World} (h : SameEffects w w') (h' : SameEffects w' w'') :
    SameEffects w w'' :=
  ⟨h.inbox.trans h'.inbox, h.db.trans h'.db, h.redis.trans h'.redis⟩

namespace Worker

section Fold

variable (R : IDeliveryRepository) (uuid : ℕ → String) (choose : World → Choice)
  (channel : String) (duplicates : List DuplicateMessage)

/-- The world after an event that is not skipped. -/
def afterEvent (s : World) (e : ParsedKafkaMessage) : World :=
  ((processMessage R channel [] e).run (World.handler uuid choose) s).2

/-- The events that the loop does not skip. -/
def unskipped (es : List ParsedKafkaMessage) : List ParsedKafkaMessage :=
  es.filter fun e => ¬ Skipped duplicates e

theorem run_processMessage_ok (e : ParsedKafkaMessage) (s : World) :
    ∃ result, (processMessage R channel duplicates e).run (World.handler uuid choose) s =
      (.ok result, if Skipped duplicates e then s else afterEvent R uuid choose channel s e) := by
  by_cases hskip : Skipped duplicates e
  · have hpure : processMessage R channel duplicates e =
        pure { success := true, shouldRetry := false, isDuplicate := true } := if_pos hskip
    rw [if_pos hskip, hpure]
    exact ⟨_, rfl⟩
  · have hsame : processMessage R channel duplicates e = processMessage R channel [] e :=
      (if_neg hskip).trans (if_neg (by simp)).symm
    have htry : processMessage R channel [] e = _ := if_neg (by simp)
    rw [if_neg hskip, afterEvent, hsame, htry, run_tryCatch]
    obtain ⟨_ | result, s'⟩ := Program.run _ _ s
    · exact ⟨_, rfl⟩
    · exact ⟨result, rfl⟩

theorem run_deliveries (es : List ParsedKafkaMessage) (s : World) :
    ∃ results, (forEach es (processMessage R channel duplicates)).run
        (World.handler uuid choose) s =
      (.ok results, (unskipped duplicates es).foldl (afterEvent R uuid choose channel) s) := by
  induction es generalizing s with
  | nil => exact ⟨[], rfl⟩
  | cons e rest ih =>
      obtain ⟨result, hrun⟩ := run_processMessage_ok R uuid choose channel duplicates e s
      obtain ⟨results, hrest⟩ := ih (if Skipped duplicates e then s else
        afterEvent R uuid choose channel s e)
      refine ⟨result :: results, ?_⟩
      rw [forEach, run_bind, hrun, andThen_ok, run_bind, hrest, andThen_ok, run_pure]
      by_cases hskip : Skipped duplicates e <;> simp [unskipped, hskip]

/-- What a batch that gets to its deliveries does. -/
theorem effects_of_prepared {w : World} {b : Batch} {es : List ParsedKafkaMessage}
    (quiescent : w.db.Quiescent) (h : Prepared w.db b es) :
    SameEffects ((eachBatch R b).run (World.handler uuid choose) w).2
      ((unskipped (duplicatesOf w.db es) es).foldl (afterEvent R uuid choose (channelOf b.topic))
        (w.withRows ((storedEvents w.db es).map ParsedKafkaMessage.newRow))) := by
  obtain ⟨results, hrun⟩ := run_deliveries R uuid choose (channelOf b.topic)
    (duplicatesOf w.db es) es (w.withRows ((storedEvents w.db es).map ParsedKafkaMessage.newRow))
  rw [run_eachBatch_of_prepared uuid choose quiescent h, deliverAll, run_bind, hrun, andThen_ok,
    run_resolveBatch_up]
  exact ⟨rfl, rfl, rfl⟩

end Fold

/-- The state `s` of the loop after the events `pre`, of which `sent` got to the provider. -/
structure Trail (channel : String) (w : World) (pre sent : List ParsedKafkaMessage) (s : World) :
    Prop where
  idle : s.db.pending = []
  inbox : ∃ new, s.inbox = w.inbox ++ new ∧
    new.map Sending.message = sent.map ParsedKafkaMessage.asMessage
  idents : s.db.messages.map MessageRow.ident = w.db.messages.map MessageRow.ident
  rows : ∀ messageId, (∀ e ∈ sent, e.asMessage.messageId ≠ messageId) →
    s.row? messageId = w.row? messageId
  keys : (∃ provider, ProviderFactory.getProvider channel = .ok provider) → ∀ key,
    (s.redis.live key).isSome = true ↔ (w.redis.live key).isSome = true ∨
      ∃ e ∈ pre, key = DeliveryDeduplicationService.buildDeliveryKey e.asMessage.dedupKey

section Trail

variable {R : IDeliveryRepository} {reads : Bool} {uuid : ℕ → String} {choose : World → Choice}
  {channel : String} {w s s' : World} {pre sent rest : List ParsedKafkaMessage}
  {e : ParsedKafkaMessage}

theorem Trail.start (idle : w.db.pending = []) : Trail channel w [] [] w :=
  ⟨idle, ⟨[], by simp, rfl⟩, rfl, fun _ _ => rfl, fun _ key => by simp⟩

theorem Trail.of_passed (trail : Trail channel w pre sent s) (h : Passes reads channel [] e s) :
    Trail channel w (pre ++ [e]) sent s := by
  refine ⟨trail.idle, trail.inbox, trail.idents, trail.rows, fun provided key => ?_⟩
  obtain ⟨provider, hprovider⟩ := provided
  rw [trail.keys ⟨provider, hprovider⟩ key]
  simp only [List.mem_append, List.mem_singleton, or_and_right, exists_or, exists_eq_left]
  refine ⟨Or.imp_right .inl, ?_⟩
  rintro (h' | h' | rfl)
  · exact .inl h'
  · exact .inr h'
  · -- the key of a message that is found is there already
    obtain h | h | h := h
    · exact absurd h Bool.false_ne_true
    · exact absurd hprovider (h provider)
    · exact (trail.keys ⟨provider, hprovider⟩ _).mp h.2

theorem Trail.of_sent (trail : Trail channel w pre sent s) (sends : Sends choose e.asMessage s s') :
    Trail channel w (pre ++ [e]) (sent ++ [e]) s' := by
  refine ⟨sends.pending.trans trail.idle, ?_, sends.idents.trans trail.idents,
    fun messageId hids => ?_, fun provided key => ?_⟩
  · obtain ⟨new, hinbox, hnew⟩ := trail.inbox
    obtain ⟨x, hsent, hx⟩ := sends.inbox
    refine ⟨new ++ [x], by rw [hsent, hinbox, List.append_assoc], ?_⟩
    rw [List.map_append, List.map_append, hnew, List.map_singleton, hx]
    rfl
  · rw [sends.row? _ (hids e (by simp)).symm]
    exact trail.rows messageId fun x hx => hids x (List.mem_append_left _ hx)
  · rw [sends.live, Bool.or_eq_true, trail.keys provided, beq_iff_eq, or_assoc]
    simp only [List.mem_append, List.mem_singleton, or_and_right, exists_or, exists_eq_left]

/-- One event of the loop. -/
theorem Trail.step (delivers : R.Delivers reads) (uuid : ℕ → String) (choose : World → Choice)
    (trail : Trail channel w pre sent s) (e : ParsedKafkaMessage) :
    (Passes reads channel [] e s ∧ afterEvent R uuid choose channel s e = s ∧
      Trail channel w (pre ++ [e]) sent s) ∨
    (¬ Passes reads channel [] e s ∧
      Trail channel w (pre ++ [e]) (sent ++ [e]) (afterEvent R uuid choose channel s e)) := by
  obtain ⟨result, s', hrun, reached⟩ :=
    run_processMessage_reached delivers uuid choose channel [] e trail.idle
  rw [afterEvent, hrun]
  cases reached with
  | passed h => exact .inl ⟨h, rfl, trail.of_passed h⟩
  | sent h sends => exact .inr ⟨h, trail.of_sent sends⟩

/-- The whole loop. -/
theorem Trail.run (delivers : R.Delivers reads) (uuid : ℕ → String) (choose : World → Choice)
    (trail : Trail channel w pre sent s) (rest : List ParsedKafkaMessage) :
    ∃ later, (∀ e ∈ later, e ∈ rest) ∧ Trail channel w (pre ++ rest) (sent ++ later)
      (rest.foldl (afterEvent R uuid choose channel) s) := by
  induction rest generalizing pre sent s with
  | nil => exact ⟨[], by simp, by simpa using trail⟩
  | cons e rest ih =>
      obtain ⟨-, hsame, next⟩ | ⟨-, next⟩ := trail.step delivers uuid choose e
      · obtain ⟨later, hlater, last⟩ := ih next
        refine ⟨later, fun x hx => List.mem_cons_of_mem _ (hlater x hx), ?_⟩
        rw [List.foldl_cons, hsame]
        simpa using last
      · obtain ⟨later, hlater, last⟩ := ih next
        refine ⟨e :: later, ?_, by simpa using last⟩
        exact List.forall_mem_cons.mpr
          ⟨List.mem_cons_self, fun x hx => List.mem_cons_of_mem _ (hlater x hx)⟩

/-- The loop goes past `e` after the events `pre`. -/
def GoneBy (reads : Bool) (channel : String) (w : World) (pre : List ParsedKafkaMessage)
    (e : ParsedKafkaMessage) : Prop :=
  (∀ provider, ProviderFactory.getProvider channel ≠ .ok provider) ∨
    FoundAfter reads w pre e.asMessage

/-- If no event with the `messageId` has been sent, what is found is known in advance. -/
theorem Trail.passes_iff (trail : Trail channel w pre sent s)
    (apart : ∀ x ∈ sent, x.asMessage.messageId ≠ e.asMessage.messageId) :
    Passes reads channel [] e s ↔ GoneBy reads channel w pre e := by
  rw [Passes, or_iff_right (show ¬ Skipped [] e from Bool.false_ne_true), GoneBy]
  by_cases hprovider : ∀ provider, ProviderFactory.getProvider channel ≠ .ok provider
  · exact iff_of_true (.inl hprovider) (.inl hprovider)
  · have provided : ∃ provider, ProviderFactory.getProvider channel = .ok provider := by
      simpa using hprovider
    rw [or_iff_right hprovider, or_iff_right hprovider, Found, FoundAfter, trail.keys provided,
      FinallyDelivered, FinallyDelivered, trail.rows _ apart]
    simp only [buildDeliveryKey_inj, eq_comm]

section Compare

variable {q : ParsedKafkaMessage → Bool} {es : List ParsedKafkaMessage}

/-- Events that the loop would go past can be left out. -/
theorem Trail.foldl_filter (delivers : R.Delivers reads) (uuid : ℕ → String)
    (choose : World → Choice) (trail : Trail channel w pre sent s)
    (members : ∀ e ∈ sent, e ∈ es ∧ q e = true) (split : ∀ e ∈ rest, e ∈ es)
    (same : ∀ e ∈ es, ∀ e' ∈ es, e.asMessage.messageId = e'.asMessage.messageId → q e = q e')
    (gone : ∀ before e after, rest = before ++ e :: after → q e = false →
      GoneBy reads channel w (pre ++ before) e) :
    (rest.filter q).foldl (afterEvent R uuid choose channel) s =
      rest.foldl (afterEvent R uuid choose channel) s := by
  induction rest generalizing pre sent s with
  | nil => rfl
  | cons e rest ih =>
      rw [List.forall_mem_cons] at split
      have gone' : ∀ before x after, rest = before ++ x :: after → q x = false →
          GoneBy reads channel w (pre ++ [e] ++ before) x := fun before x after hsplit hx => by
        have := gone (e :: before) x after (by rw [hsplit, List.cons_append]) hx
        rwa [← List.append_cons]
      by_cases hq : q e = true
      · rw [List.filter_cons_of_pos hq, List.foldl_cons, List.foldl_cons]
        obtain ⟨-, hsame, next⟩ | ⟨-, next⟩ := trail.step delivers uuid choose e
        · rw [hsame]
          exact ih next members split.2 gone'
        · refine ih next (fun x hx => ?_) split.2 gone'
          cases List.mem_append.mp hx with
          | inl hx => exact members x hx
          | inr hx =>
              obtain rfl := List.mem_singleton.mp hx
              exact ⟨split.1, hq⟩
      · rw [List.filter_cons_of_neg hq, List.foldl_cons]
        have hpasses : Passes reads channel [] e s := by
          refine (trail.passes_iff fun x hx hid => ?_).mpr ?_
          · exact hq (same e split.1 x (members x hx).1 hid.symm ▸ (members x hx).2)
          · simpa using gone [] e rest rfl (by simpa using hq)
        obtain ⟨-, hsame, next⟩ | ⟨hnot, -⟩ := trail.step delivers uuid choose e
        · rw [hsame]
          exact ih next members split.2 gone'
        · exact absurd hpasses hnot

/-- If leaving events out does not change the provider calls, the loop goes past them. -/
theorem goneBy_of_inbox (delivers : R.Delivers reads) (uuid : ℕ → String)
    (choose : World → Choice) (idle : w.db.pending = [])
    (same : ∀ e ∈ es, ∀ e' ∈ es, e.asMessage.messageId = e'.asMessage.messageId → q e = q e')
    (inbox : ((es.filter q).foldl (afterEvent R uuid choose channel) w).inbox =
      (es.foldl (afterEvent R uuid choose channel) w).inbox)
    {before after : List ParsedKafkaMessage} (split : es = before ++ e :: after)
    (out : q e = false) : GoneBy reads channel w before e := by
  have start : Trail channel w [] [] w := .start idle
  obtain ⟨kept, hkept, trailKept⟩ := start.run delivers uuid choose (es.filter q)
  obtain ⟨new, hinbox, hnew⟩ := trailKept.inbox
  -- whatever the whole loop sends is sent without the events left out
  have sentKept {total : List ParsedKafkaMessage} (members : ∀ x ∈ total, x ∈ es)
      (trail : Trail channel w es total (es.foldl (afterEvent R uuid choose channel) w)) :
      ∀ x ∈ total, q x = true := by
    intro x hx
    obtain ⟨new', hinbox', hnew'⟩ := trail.inbox
    rw [inbox, hinbox', List.append_cancel_left_eq] at hinbox
    rw [hinbox, hnew, List.nil_append] at hnew'
    obtain ⟨x', hx', hsame⟩ := List.mem_map.mp (hnew' ▸ List.mem_map_of_mem hx)
    obtain ⟨member, hq⟩ := List.mem_filter.mp (hkept x' hx')
    rw [← same x' member x (members x hx) (by rw [hsame])]
    exact hq
  obtain ⟨first, hfirst, trail⟩ := start.run delivers uuid choose before
  rw [List.nil_append, List.nil_append] at trail
  have memberFirst : ∀ x ∈ first, x ∈ es := fun x hx => by
    rw [split]
    exact List.mem_append_left _ (hfirst x hx)
  have hfold : es.foldl (afterEvent R uuid choose channel) w =
      after.foldl (afterEvent R uuid choose channel) (afterEvent R uuid choose channel
        (before.foldl (afterEvent R uuid choose channel) w) e) := by
    rw [split, List.foldl_append, List.foldl_cons]
  have hes : before ++ [e] ++ after = es := by simp [split]
  obtain ⟨hpasses, hsame, next⟩ | ⟨-, next⟩ := trail.step delivers uuid choose e
  · obtain ⟨later, hlater, last⟩ := next.run delivers uuid choose after
    rw [← hsame, ← hfold, hes] at last
    have hkeep := sentKept (List.forall_mem_append.mpr ⟨memberFirst, fun x hx => by
      simp [split, hlater x hx]⟩) last
    refine (trail.passes_iff fun x hx hid => ?_).mp hpasses
    have := hkeep x (List.mem_append_left _ hx)
    rw [same x (memberFirst x hx) e (by simp [split]) hid, out] at this
    cases this
  · obtain ⟨later, hlater, last⟩ := next.run delivers uuid choose after
    rw [← hfold, hes] at last
    have hkeep := sentKept (List.forall_mem_append.mpr ⟨List.forall_mem_append.mpr ⟨memberFirst,
      by simp [split]⟩, fun x hx => by simp [split, hlater x hx]⟩) last e (by simp)
    rw [out] at hkeep
    cases hkeep

end Compare

end Trail

end Worker

end Notification
