import Notification.Logger.Consumption
import Notification.System.Correlation

/-!
# The services and the loggers

The loggers read what the services publish. They share nothing else, so that a run of all of
them is a run of the services and a run of the loggers, whose topics hold no more than the
services have published.
-/

namespace Notification

open Interaction Program

/-! ## Documents -/

/-- A document reports about an origin. -/
structure Origin.Documented (sha256 : String → String) (o : Origin) (x : String × Json) :
    Prop where
  traceId : x.2.get? "traceId" = some (.string o.traceId)
  messageId : x.2.get? "messageId" = some (.string o.messageId)
  userId : x.2.get? "userId" = some (.string o.request.userId)
  dedupKey : x.2.get? "dedupKey" = some (.string (o.request.dedupKey sha256))
  channel : x.2.get? "channel" = some (.string o.request.channel)
  dataset : o.request.channel ≠ "" →
    x.2.get? "event" = some (.object [("dataset", .string o.request.channel)])

/-- A field of a document is the field of its log. -/
theorem Holds.get? {x : String × Json} {log : Json} (h : Holds x log) {name : String}
    {value : Json} (object : log.get? name = some value) {field : String}
    (hfield : field ≠ "@timestamp") (hevent : field ≠ "event") :
    x.2.get? field = log.get? field := by
  obtain ⟨dataset, today, timestamp, -, rfl⟩ := h
  rw [ElasticsearchLogRepository.get?_document object, if_neg hfield, if_neg hevent]

theorem Origin.Reports.documented {sha256 : String → String} {o : Origin} {x : Record}
    (h : o.Reports sha256 x) {y : String × Json} (holds : Holds y x.value) :
    o.Documented sha256 y := by
  have same {field : String} (hfield : field ≠ "@timestamp") (hevent : field ≠ "event") :
      y.2.get? field = x.value.get? field := holds.get? h.traceId hfield hevent
  constructor
  · rw [same (by decide) (by decide), h.traceId]
  · rw [same (by decide) (by decide), h.messageId]
  · rw [same (by decide) (by decide), h.userId]
  · rw [same (by decide) (by decide), h.dedupKey]
  · rw [same (by decide) (by decide), h.channel]
  · intro nonempty
    obtain ⟨dataset, today, timestamp, hdataset, rfl⟩ := holds
    rw [ElasticsearchLogRepository.get?_document h.traceId, if_neg (by decide), if_pos rfl]
    have hchannel := ElasticsearchLogRepository.dataset_of_channel h.channel nonempty
    rw [Except.ok.inj (hdataset.symm.trans hchannel)]

/-! ## The errors -/

/-- What is on `errors` has been written by the router for a request that has failed. -/
def Complains (x : Record) : Prop :=
  ∃ traceId error, x.value = MessageController.errorRecord traceId error

theorem complains_of_batch {kind : RepositoryKind} {sha256 : String → String} {w : World}
    {b : Batch} (genuine : Genuine sha256 w) (read : Read w b) {key : Option Json}
    {value : Json} {headers : List (String × String)} :
    ¬ BatchCall kind b (.produce "errors" key value headers) := by
  intro made
  cases made with
  | prepare c prepares => cases prepares
  | deliver e provider c member wellFormed hprovider delivers =>
      obtain ⟨o, -, -, rfl, -⟩ := genuine.origin_of_wellFormed read member wellFormed
      cases kind with
      | statements => cases delivers
      | interface =>
          generalize htopic : "errors" = topic at delivers
          cases delivers with
          | log status text error => exact absurd htopic (by decide)
          | dlq reason h => exact absurd (congrArg String.toList htopic) (by simp)
          | report key reason h =>
              have hattempt : (o.event sha256).asMessage.attempt = 0 := rfl
              rw [hattempt] at h
              exact absurd h (by decide)

namespace Services

variable {kind : RepositoryKind} {sha256 : String → String} {uuid : ℕ → String} {init : World}
  {allowed : Services → Action Reply JsError ServiceJob → Prop} {s : Services}

theorem complaints (run : (services kind sha256 uuid).Run allowed init s) (fresh : init.Fresh) :
    ∀ x ∈ s.shared.log, x.topic = "errors" → Complains x := by
  apply records_of_run (φ := fun _ x => x.topic = "errors" → Complains x) run fresh
  · exact fun _ h => h
  · rintro s pid proc topic key value headers answered origins hproc made partition rfl
    unfold JobCall at made
    split at made
    · generalize htopic : "errors" = topic at made
      cases made with
      | publish o hrequest drawn silent valid =>
          exact absurd (congrArg String.toList htopic) (by simp [Origin.record,
            MessageController.messageRecord])
      | accepted o spanId hrequest drawn => exact absurd htopic (by decide)
      | duplicate o spanId cached hrequest drawn hcached => exact absurd htopic (by decide)
      | failed key traceId error => exact ⟨traceId, error, rfl⟩
    · next b hjob =>
        have read := origins.read pid proc b hproc hjob
        exact absurd made (complains_of_batch origins.toGenuine read)
    · generalize htopic : "errors" = topic at made
      cases made with
      | publish now items item key headers answered member =>
          exact absurd (congrArg String.toList htopic) (by simp)

/-! ## What is in Elasticsearch -/

/-- The topics of the loggers hold no more than the services have published. -/
def Carries (w : World) (l : LogWorld) : Prop :=
  ∀ topic ∈ Logger.topics, ∀ partition, l.records topic partition <+:
    (w.events topic partition).map fun value => some (some value)

theorem record_of_carries {w : World} {l : LogWorld} (carries : Carries w l) {topic : String}
    (htopic : topic ∈ Logger.topics) {partition offset : ℕ} {value : Option (Option Json)}
    (h : (l.records topic partition)[offset]? = some value) :
    ∃ x ∈ w.log, x.topic = topic ∧ value = some (some x.value) := by
  have hvalue := Lookup.getElem?_of_grows (carries topic htopic partition) h
  rw [List.getElem?_map, Option.map_eq_some_iff] at hvalue
  obtain ⟨json, hjson, rfl⟩ := hvalue
  obtain ⟨x, hx, rfl⟩ := List.mem_map.mp (List.mem_of_getElem? hjson)
  rw [List.mem_filter, Bool.and_eq_true, beq_iff_eq] at hx
  exact ⟨x, hx.1, hx.2.1, rfl⟩

/-- A document reports about a request, or it tells of one that has failed. -/
theorem documented_or_complains (run : (services kind sha256 uuid).Run allowed init s)
    (fresh : init.Fresh) {l : LogWorld} (carries : Carries s.shared l) {x : String × Json}
    (stems : Loggers.Stems l x) :
    (∃ o, Asked s o ∧ o.Documented sha256 x) ∨
      ∃ traceId error, Holds x (MessageController.errorRecord traceId error) := by
  obtain ⟨topic, htopic, partition, offset, value, log, hrecord, hlog, holds⟩ := stems
  obtain ⟨y, hy, rfl, rfl⟩ := record_of_carries carries htopic hrecord
  obtain rfl := Except.ok.inj hlog
  obtain hlogs | herrors := List.mem_cons.mp htopic
  · obtain ⟨o, asked, reports⟩ := reported run fresh y hy hlogs
    exact .inl ⟨o, asked, reports.documented holds⟩
  · obtain ⟨traceId, error, hvalue⟩ := complaints run fresh y hy (List.mem_singleton.mp herrors)
    exact .inr ⟨traceId, error, hvalue ▸ holds⟩

theorem Holds.of_errorRecord {x : String × Json} {traceId : String} {error : JsError}
    (h : Holds x (MessageController.errorRecord traceId error)) :
    x.2.get? "messageId" = none ∧ x.2.get? "level" = some (.string "ERROR") := by
  have hlevel : (MessageController.errorRecord traceId error).get? "level" =
      some (.string "ERROR") := rfl
  exact ⟨h.get? hlevel (by decide) (by decide), h.get? hlevel (by decide) (by decide)⟩

/-- What a search in Elasticsearch finds. A document is about one request, and so are all the
documents and rows with its message id; only requests that have failed leave documents without
one. And the log records that the loggers have passed are found, unless Elasticsearch has
failed for them. -/
theorem documents_correlate (run : (services kind sha256 uuid).Run allowed init s)
    (fresh : init.Fresh) (injective : Function.Injective uuid) {start : LogWorld} {l : Loggers}
    {permitted : Loggers → Action LogReply JsError Batch → Prop}
    (reading : loggers.Run permitted start l) (empty : start.documents = [])
    (bounded : ∀ topic partition,
      start.resolved topic partition ≤ (start.records topic partition).length)
    (carries : Carries s.shared l.shared) :
    (∀ x ∈ l.shared.documents,
      (∃ o, Asked s o ∧ o.Documented sha256 x ∧
        (∀ y ∈ l.shared.documents, y.2.get? "messageId" = some (.string o.messageId) →
          o.Documented sha256 y) ∧
        ∀ r ∈ s.shared.db.rows, r.messageId = o.messageId → o.Stored sha256 r) ∨
      (x.2.get? "messageId" = none ∧ x.2.get? "level" = some (.string "ERROR"))) ∧
    ∀ partition offset, start.resolved "logs" partition ≤ offset →
      offset < l.shared.resolved "logs" partition →
      ∃ y ∈ s.shared.log,
        (l.shared.records "logs" partition)[offset]? = some (some (some y.value)) ∧
        ∃ o x, Asked s o ∧ o.Reports sha256 y ∧ Holds x y.value ∧ o.Documented sha256 x ∧
          (x ∈ l.shared.documents ∨ ∃ pid e, (pid, ⟨.index x.1 x.2, .error e⟩) ∈ l.history) := by
  have found {x : String × Json} (hx : x ∈ l.shared.documents) :=
    documented_or_complains run fresh carries
      ((Loggers.stems reading hx).resolve_left (by simp [empty]))
  constructor
  · intro x hx
    obtain ⟨o, asked, documented⟩ | ⟨traceId, error, holds⟩ := found hx
    · refine .inl ⟨o, asked, documented, fun y hy same => ?_,
        stored_of_id run fresh injective asked⟩
      obtain ⟨o', asked', documented'⟩ | ⟨traceId, error, holds⟩ := found hy
      · have hid := Json.string.inj (Option.some.inj (same.symm.trans documented'.messageId))
        rwa [asked.eq_of_drawn asked' (numbered run injective) run.coherent (.inl hid)]
      · rw [(Holds.of_errorRecord holds).1] at same
        cases same
    · exact .inr (Holds.of_errorRecord holds)
  · intro partition offset hlo hhi
    have covered := Loggers.covered reading bounded "logs" partition
    have hrecord := List.getElem?_eq_getElem (hhi.trans_le covered.bounded)
    obtain ⟨y, hy, htopic, hvalue⟩ := record_of_carries carries (by decide) hrecord
    obtain ⟨o, asked, reports⟩ := reported run fresh y hy htopic
    have hlog : LogConsumerService.parse
        ((l.shared.records "logs" partition).get ⟨offset, hhi.trans_le covered.bounded⟩) =
        .ok y.value := congrArg LogConsumerService.parse hvalue
    have notNull : y.value ≠ .null := by
      intro hnull
      have := reports.traceId
      rw [hnull] at this
      cases this
    obtain ⟨x, holds, settled⟩ := covered.holds offset _ hlo hhi hrecord y.value hlog notNull
    exact ⟨y, hy, hrecord.trans (congrArg some hvalue), o, x, asked, reports, holds,
      reports.documented holds, settled⟩

end Services

/-! ## The order in Elasticsearch -/

/-- The topics as the order has left them. -/
def orderRecords : LogWorld where
  records topic partition :=
    ((orderTried .interface unreachable).shared.events topic partition).map
      fun value => some (some value)

def orderLogBatch : Batch := ⟨"logs", 0, orderRecords.fetch "logs" 0 0 2⟩

def orderLogged : Loggers :=
  Machine.turns (fun _ _ => true) roomForOne 0 10
    ((Pool.initial orderRecords).spawn orderLogBatch (loggers.code orderLogBatch))

theorem run_orderLogged : loggers.Run (fun _ _ => True) orderRecords orderLogged := by
  apply Machine.Run.turns answers_roomForOne fun _ _ _ => trivial
  have fetches : orderRecords.Fetches orderLogBatch := ⟨by decide, 0, 2, le_rfl, rfl⟩
  exact .next .initial (.start fetches) trivial

theorem carries_orderLogged :
    Services.Carries (orderTried .interface unreachable).shared orderLogged.shared := by
  intro topic _ partition
  exact List.prefix_refl _

/-- The report of the router is found, and Elasticsearch had no room for the aggregator's. -/
theorem documents_correlate_order :
    ((∀ x ∈ orderLogged.shared.documents,
        (∃ o, Asked (orderTried .interface unreachable) o ∧ o.Documented id x ∧
          (∀ y ∈ orderLogged.shared.documents,
            y.2.get? "messageId" = some (.string o.messageId) → o.Documented id y) ∧
          ∀ r ∈ (orderTried .interface unreachable).shared.db.rows,
            r.messageId = o.messageId → o.Stored id r) ∨
        (x.2.get? "messageId" = none ∧ x.2.get? "level" = some (.string "ERROR"))) ∧
      ∀ partition offset, orderRecords.resolved "logs" partition ≤ offset →
        offset < orderLogged.shared.resolved "logs" partition →
        ∃ y ∈ (orderTried .interface unreachable).shared.log,
          (orderLogged.shared.records "logs" partition)[offset]? = some (some (some y.value)) ∧
          ∃ o x, Asked (orderTried .interface unreachable) o ∧ o.Reports id y ∧ Holds x y.value ∧
            o.Documented id x ∧ (x ∈ orderLogged.shared.documents ∨
              ∃ pid e, (pid, ⟨.index x.1 x.2, .error e⟩) ∈ orderLogged.history)) ∧
    orderLogged.shared.documents.map (fun x => x.2.stringField "service") = [some "router"] ∧
      orderLogged.shared.resolved "logs" 0 = 2 :=
  ⟨Services.documents_correlate (run_orderTried .interface unreachable) World.fresh_empty
    repr_injective run_orderLogged rfl (fun _ _ => Nat.zero_le _) carries_orderLogged,
    by decide, by decide⟩

end Notification
