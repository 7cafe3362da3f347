import Notification.Aggregator.Agreement
import Notification.Aggregator.EffectivelyOnce

/-!
# Only stored messages are delivered

With a provider that always fails, the deliveries of a batch tell which events got to the
provider. If these are the reported ones, the three notions of a new message agree.
-/

namespace Notification

open Interaction Program BatchIdempotencyService

namespace Worker

section Converse

variable {R : IDeliveryRepository} {reads : Bool} {choose : World → Choice} {w s s' : World}
  {b : Batch} {es pre rest : List ParsedKafkaMessage} {e : ParsedKafkaMessage}
  {later : List Sending}

/-- What the loop sends from `s` on: events that are not skipped and have a provider. If
rows are not read, their keys are new as well. -/
structure SendsFrom (reads : Bool) (channel : String) (duplicates : List DuplicateMessage)
    (rest : List ParsedKafkaMessage) (s : World) (later : List Sending) : Prop where
  event : ∀ x ∈ later, ∃ e ∈ rest, ¬ Skipped duplicates e ∧ x.message = e.asMessage
  provider : ∀ x ∈ later, ∃ provider, ProviderFactory.getProvider channel = .ok provider
  key : reads = false → ∀ x ∈ later, (s.redis.live
    (DeliveryDeduplicationService.buildDeliveryKey x.message.dedupKey)).isSome = false

theorem SendsFrom.passed {channel : String} {duplicates : List DuplicateMessage}
    (h : SendsFrom reads channel duplicates rest s later) :
    SendsFrom reads channel duplicates (e :: rest) s later where
  event x hx := by
    obtain ⟨e', he', hsent⟩ := h.event x hx
    exact ⟨e', List.mem_cons_of_mem _ he', hsent⟩
  provider := h.provider
  key := h.key

theorem SendsFrom.sent {channel : String} {duplicates : List DuplicateMessage} {x : Sending}
    (h : SendsFrom reads channel duplicates rest s' later)
    (hpasses : ¬ Passes reads channel duplicates e s) (sends : Sends choose e.asMessage s s')
    (hx : x.message = e.asMessage) :
    SendsFrom reads channel duplicates (e :: rest) s (x :: later) := by
  rw [Passes, not_or, not_or] at hpasses
  obtain ⟨hskip, hprovider, hfound⟩ := hpasses
  refine ⟨List.forall_mem_cons.mpr ⟨⟨e, List.mem_cons_self, hskip, hx⟩, h.passed.event⟩,
    List.forall_mem_cons.mpr ⟨by simpa using hprovider, h.provider⟩, fun unread =>
      List.forall_mem_cons.mpr ⟨?_, fun y hy => ?_⟩⟩
  · rw [hx, Bool.eq_false_iff]
    exact fun hlive => hfound ⟨fun reads => absurd (unread.symm.trans reads) Bool.false_ne_true,
      hlive⟩
  · have hlater := h.key unread y hy
    rw [sends.live, Bool.or_eq_false_iff] at hlater
    exact hlater.1

theorem run_sendsFrom (delivers : R.Delivers reads) (uuid : ℕ → String) (choose : World → Choice)
    (channel : String) (duplicates : List DuplicateMessage) (rest : List ParsedKafkaMessage)
    (idle : s.db.pending = []) :
    ∃ results s', (forEach rest (processMessage R channel duplicates)).run
        (World.handler uuid choose) s = (.ok results, s') ∧
      ∃ later, s'.inbox = s.inbox ++ later ∧
        SendsFrom reads channel duplicates rest s later := by
  induction rest generalizing s with
  | nil => exact ⟨[], s, rfl, [], by simp, by simp, by simp, by simp⟩
  | cons e rest ih =>
      obtain ⟨result, s₁, hrun, reached⟩ :=
        run_processMessage_reached delivers uuid choose channel duplicates e idle
      obtain ⟨results, s', hrest, later, hinbox, hlater⟩ := ih (reached.pending.trans idle)
      refine ⟨result :: results, s', by simp [forEach, hrun, hrest], ?_⟩
      cases reached with
      | passed _ => exact ⟨later, hinbox, hlater.passed⟩
      | sent hpasses sends =>
          obtain ⟨x, hsent, hx⟩ := sends.inbox
          exact ⟨x :: later, by rw [hinbox, hsent, List.append_assoc, List.singleton_append],
            hlater.sent hpasses sends hx⟩

/-- A well-formed event with the `messageId` of a skipped one is skipped. -/
theorem Skipped.of_asMessage {duplicates : List DuplicateMessage} {e' : ParsedKafkaMessage}
    (h : Skipped duplicates e) (wellFormed : e.WellFormed) (wellFormed' : e'.WellFormed)
    (same : e'.asMessage = e.asMessage) : Skipped duplicates e' := by
  have hid : e'.messageId = e.messageId := by
    obtain ⟨_, _, _, _, hid, -⟩ := Consuming.ident_of_wellFormed wellFormed
    obtain ⟨_, _, _, _, hid', -⟩ := Consuming.ident_of_wellFormed wellFormed'
    rw [hid, hid', same]
  rw [Skipped, hid]
  exact h

/-- What the loop sends from here on is what is stored from here on. -/
theorem Progress.sends_rest (progress : Progress choose w es pre s) (split : es = pre ++ rest)
    (sends : ∃ sent, s.inbox ++ later = w.inbox ++ sent ∧
      sent.map Sending.message = (storedEvents w.db es).map ParsedKafkaMessage.asMessage) :
    later.map Sending.message =
      (insertable (w.db.messages ++ (storedUpTo w es pre).map ParsedKafkaMessage.newRow)
        (Consuming.fresh (rowsFor w.db (es.map ParsedKafkaMessage.toCheck)) rest)).map
        ParsedKafkaMessage.asMessage := by
  obtain ⟨before, hbefore, hmessages⟩ := progress.inbox
  obtain ⟨sent, hsent, hstored⟩ := sends
  rw [hbefore, List.append_assoc, List.append_cancel_left_eq] at hsent
  have hall : storedEvents w.db es = storedUpTo w es (pre ++ rest) := by
    rw [← split]
    rfl
  rw [← hsent, hall, storedUpTo_append, List.map_append, List.map_append, hmessages] at hstored
  exact List.append_cancel_left hstored

/-- The loop does not go past an event that is stored. -/
theorem Progress.not_passesAfter (progress : Progress choose w es pre s)
    (stored : ∀ e ∈ newEvents w.db es, e.WellFormed) (split : es = pre ++ e :: rest)
    (inserted : Inserted w es pre e)
    (hlater : SendsFrom reads (channelOf b.topic) (duplicatesOf w.db es) rest s later)
    (sends : ∃ sent, s.inbox ++ later = w.inbox ++ sent ∧
      sent.map Sending.message = (storedEvents w.db es).map ParsedKafkaMessage.asMessage) :
    ¬ PassesAfter reads w b es (storedUpTo w es pre) e := by
  have wellFormed {e' : ParsedKafkaMessage} (member : e' ∈ es) (new : IsNew w es e') :
      e'.WellFormed := stored e' (List.mem_filter.mpr ⟨member, new⟩)
  -- the event is not sent now, so a later one is sent for it
  obtain ⟨x, hx, hsent⟩ : ∃ x ∈ later, x.message = e.asMessage := by
    have hrest := progress.sends_rest split sends
    rw [fresh_cons_of_new inserted.1, insertable, if_neg (any_clashes_iff.mpr inserted.2)] at hrest
    exact List.mem_map.mp (hrest ▸ List.mem_cons_self)
  rintro (hskip | hprovider | hfound)
  · obtain ⟨e', he', hskip', hsame⟩ := hlater.event x hx
    have member' : e' ∈ es := by simp [split, he']
    have new' : IsNew w es e' := by
      by_contra old
      exact hskip' (skipped_of_not_new member' old)
    exact hskip' (hskip.of_asMessage (wellFormed (by simp [split]) inserted.1)
      (wellFormed member' new') (hsame.symm.trans hsent))
  · obtain ⟨provider, h⟩ := hlater.provider x hx
    exact hprovider provider h
  · obtain ⟨hread, hlive⟩ := progress.found hfound
    cases reads with
    | true =>
        obtain ⟨row, hrow, hwaiting⟩ := progress.waiting_of_inserted stored split inserted
        exact not_finallyDelivered hrow hwaiting (hread rfl)
    | false =>
        have hkey := hlater.key rfl x hx
        rw [hsent, hlive] at hkey
        cases hkey

/-- A new event that is sent is stored. -/
theorem Progress.inserted_of_sent (progress : Progress choose w es pre s)
    (stored : ∀ e ∈ newEvents w.db es, e.WellFormed) (split : es = pre ++ e :: rest)
    (new : IsNew w es e) {x : Sending} (hx : x.message = e.asMessage)
    (sends : ∃ sent, s.inbox ++ x :: later = w.inbox ++ sent ∧
      sent.map Sending.message = (storedEvents w.db es).map ParsedKafkaMessage.asMessage) :
    Inserted w es pre e := by
  have hrest := progress.sends_rest split sends
  obtain ⟨e', he', hsame⟩ := List.mem_map.mp
    (hrest ▸ List.mem_map_of_mem (List.mem_cons_self (a := x) (l := later)))
  obtain ⟨member, free⟩ := mem_of_insertable he'
  obtain ⟨member, new'⟩ := List.mem_filter.mp member
  -- both rows have the identity of the message
  have hident : e.newRow.ident = e'.newRow.ident := by
    rw [newRow_ident (stored e (List.mem_filter.mpr ⟨by simp [split], new⟩)),
      newRow_ident (stored e' (List.mem_filter.mpr ⟨by simp [split, member], new'⟩)), hsame, hx]
  refine ⟨new, fun r hr => ?_⟩
  rw [MessageRow.clashes_of_ident hident rfl]
  exact free r hr

/-- If the loop sends what has been stored, the notions agree from here on. -/
theorem Progress.agrees_rest (delivers : R.Delivers reads) (uuid : ℕ → String)
    (fail : AllFail choose) (progress : Progress choose w es pre s)
    (stored : ∀ e ∈ newEvents w.db es, e.WellFormed) (split : es = pre ++ rest)
    (sends : ∃ results s', (forEach rest (processMessage R (channelOf b.topic)
        (duplicatesOf w.db es))).run (World.handler uuid choose) s = (.ok results, s') ∧
      ∃ sent, s'.inbox = w.inbox ++ sent ∧
        sent.map Sending.message = (storedEvents w.db es).map ParsedKafkaMessage.asMessage)
    (before : List ParsedKafkaMessage) {after : List ParsedKafkaMessage}
    (h : Consuming.fresh (rowsFor w.db (es.map ParsedKafkaMessage.toCheck)) rest =
      before ++ e :: after) :
    AgreesAt reads w b es
      (Consuming.fresh (rowsFor w.db (es.map ParsedKafkaMessage.toCheck)) pre ++ before) e := by
  induction rest generalizing pre s before with
  | nil => simp [Consuming.fresh] at h
  | cons first rest ih =>
      obtain ⟨result, s₁, hrun, reached⟩ := run_processMessage_reached delivers uuid choose
        (channelOf b.topic) (duplicatesOf w.db es) first progress.idle
      obtain ⟨results, s', hrest, later, hinbox, hlater⟩ := run_sendsFrom delivers uuid choose
        (channelOf b.topic) (duplicatesOf w.db es) rest (reached.pending.trans progress.idle)
      obtain ⟨results', s'', hall, sent, hsent, hmessages⟩ := sends
      simp only [forEach, run_bind, hrun, andThen_ok, hrest, run_pure, Prod.mk.injEq] at hall
      obtain ⟨-, rfl⟩ := hall
      have hsends : ∃ sent, s₁.inbox ++ later = w.inbox ++ sent ∧
          sent.map Sending.message = (storedEvents w.db es).map ParsedKafkaMessage.asMessage :=
        ⟨sent, by rw [← hinbox, hsent], hmessages⟩
      have agreesAt (new : IsNew w es first) : AgreesAt reads w b es
          (Consuming.fresh (rowsFor w.db (es.map ParsedKafkaMessage.toCheck)) pre) first := by
        apply (clashes_iff_not_inserted new).trans
        cases reached with
        | passed hpasses =>
            refine ⟨fun _ => hpasses.imp_right (Or.imp_right (progress.foundAfter
              (progress.undelivered fail _))), fun hafter inserted => ?_⟩
            exact progress.not_passesAfter stored split inserted hlater hsends hafter
        | sent hpasses sends =>
            obtain ⟨x, hx, hmessage⟩ := sends.inbox
            rw [hx, List.append_assoc, List.singleton_append] at hsends
            have inserted := progress.inserted_of_sent stored split new hmessage hsends
            exact iff_of_false (not_not.mpr inserted) fun hafter =>
              hpasses (hafter.imp_right (Or.imp_right progress.found))
      have next := progress.step stored split agreesAt reached
      have rest_agrees := ih next
        (by rw [split]; simp) ⟨results, s', hrest, sent, hsent, hmessages⟩
      by_cases new : IsNew w es first
      · rw [fresh_cons_of_new new] at h
        cases before with
        | nil =>
            obtain ⟨rfl, -⟩ := List.cons.inj h
            rw [List.append_nil]
            exact agreesAt new
        | cons x before =>
            obtain ⟨rfl, htail⟩ := List.cons.inj h
            have := rest_agrees _ htail
            rwa [fresh_append, fresh_cons_of_new new, List.append_assoc] at this
      · rw [fresh_cons_of_old new] at h
        have := rest_agrees _ h
        rwa [fresh_append, fresh_cons_of_old new, show Consuming.fresh _ [] = [] from rfl,
          List.append_nil] at this

end Converse

section Batches

variable {R : IDeliveryRepository} {reads : Bool} {uuid : ℕ → String} {w : World} {b : Batch}
  {es : List ParsedKafkaMessage}

/-- The provider fails whenever it is called. -/
def alwaysFails : World → Choice := fun _ => { outcome := .error { message := "unavailable" } }

theorem allFail_alwaysFails : AllFail alwaysFails := fun _ => ⟨_, rfl⟩

/-- If the deliveries are as reported when all of them fail, the notions agree. -/
theorem agrees_of_databaseFirst (delivers : R.Delivers reads) (quiescent : w.db.Quiescent)
    (h : Prepared w.db b es) (databaseFirst : DatabaseFirst R uuid alwaysFails b w) :
    Agrees reads w b es := by
  obtain ⟨sent, hsent, hmessages⟩ := databaseFirst.sends
  have progress : Progress alwaysFails w es [] _ := progress_start _ quiescent h.stored
  obtain ⟨results, s, hrun, -⟩ := run_sendsFrom delivers uuid alwaysFails (channelOf b.topic)
    (duplicatesOf w.db es) es progress.idle
  rw [run_eachBatch_of_prepared uuid alwaysFails quiescent h, deliverAll, run_bind, hrun,
    andThen_ok, (makes_resolveBatch b.messages results).run_keeps
      (fun _ _ _ keeps => inbox_handler _ _ keeps)] at hsent
  rw [reportedInProgress_of_prepared quiescent h] at hmessages
  intro before e after hnew
  exact progress.agrees_rest delivers uuid allFail_alwaysFails h.stored rfl
    ⟨results, s, hrun, sent, hsent, hmessages⟩ _ hnew

theorem databaseFirst_iff_agrees (delivers : R.Delivers reads) (uuid : ℕ → String) (b : Batch)
    (quiescent : w.db.Quiescent) : (∀ choose, DatabaseFirst R uuid choose b w) ↔
      ∀ es, Prepared w.db b es → Agrees reads w b es :=
  ⟨fun databaseFirst _ h => agrees_of_databaseFirst delivers quiescent h
    (databaseFirst alwaysFails), fun agrees _ => databaseFirst_of_agrees delivers quiescent agrees⟩

end Batches

section Sample

/-- Two requests with one pair in a batch. -/
def rivalBatch : Batch := (Consuming.batchOf [sampleMessage, Consuming.rivalMessage]).toBatch

end Sample

end Worker

end Notification
