import Notification.Logger.CatchingUp
import Notification.System.Logged

/-!
# Every log can be found

However far the loggers are behind: the records that the services have published can still be
handed to them, and read to the end. Then each log has a document, unless Elasticsearch has
failed for it before.
-/

namespace Notification

open Interaction Program

/-! ## What has not been handed to the loggers -/

/-- The topics, with other records on them. -/
def LogWorld.holding (w : LogWorld) (records : String → ℕ → List (Option (Option Json))) :
    LogWorld := { w with records }

theorem LogWorld.holding_records (w : LogWorld) : w.holding w.records = w := rfl

namespace Loggers

/-- Kafka can hand on what is missing at the end of a partition. -/
theorem reaches_appended (s : Loggers) (topic : String) (partition : ℕ)
    (values : List (Option (Option Json))) :
    loggers.Reaches (fun _ _ => True) s
      { s with shared := s.shared.holding fun topic' partition' =>
          if topic' = topic ∧ partition' = partition then
            s.shared.records topic partition ++ values
          else s.shared.records topic' partition' } := by
  induction values generalizing s with
  | nil =>
      have same : (fun topic' partition' =>
          if topic' = topic ∧ partition' = partition then s.shared.records topic partition ++ []
          else s.shared.records topic' partition') = s.shared.records := by
        funext topic' partition'
        split
        · next h =>
            obtain ⟨rfl, rfl⟩ := h
            exact List.append_nil _
        · rfl
      rw [same, LogWorld.holding_records]
      exact .refl
  | cons value rest ih =>
      let s₁ : Loggers := { s with shared := s.shared.append topic partition value }
      have reaches₁ : loggers.Reaches (fun _ _ => True) s s₁ :=
        .next .refl (.drift ⟨topic, partition, value, rfl⟩) trivial
      have same : (fun topic' partition' =>
          if topic' = topic ∧ partition' = partition then
            s₁.shared.records topic partition ++ rest
          else s₁.shared.records topic' partition') = fun topic' partition' =>
          if topic' = topic ∧ partition' = partition then
            s.shared.records topic partition ++ value :: rest
          else s.shared.records topic' partition' := by
        funext topic' partition'
        simp only [s₁, LogWorld.append, and_self, if_true, List.append_assoc, List.cons_append,
          List.nil_append]
        split <;> rfl
      exact .trans reaches₁ (same ▸ ih s₁)

/-- The same for any partitions of which nothing but the end is missing. -/
theorem reaches_supplied (s : Loggers) (parts : List (String × ℕ))
    {published : String → ℕ → List (Option (Option Json))}
    (behind : ∀ p ∈ parts, s.shared.records p.1 p.2 <+: published p.1 p.2) :
    loggers.Reaches (fun _ _ => True) s
      { s with shared := s.shared.holding fun topic partition =>
          if (topic, partition) ∈ parts then published topic partition
          else s.shared.records topic partition } := by
  induction parts generalizing s with
  | nil => exact .refl
  | cons p rest ih =>
      obtain ⟨topic, partition⟩ := p
      obtain ⟨values, hvalues⟩ := behind _ List.mem_cons_self
      let s₁ : Loggers :=
        { s with shared := s.shared.holding fun topic' partition' =>
            if topic' = topic ∧ partition' = partition then
              s.shared.records topic partition ++ values
            else s.shared.records topic' partition' }
      have hrecords₁ (topic' : String) (partition' : ℕ) : s₁.shared.records topic' partition' =
          if topic' = topic ∧ partition' = partition then published topic partition
          else s.shared.records topic' partition' := by
        rw [← hvalues]
        rfl
      have behind₁ (p : String × ℕ) (hp : p ∈ rest) :
          s₁.shared.records p.1 p.2 <+: published p.1 p.2 := by
        rw [hrecords₁]
        split
        · next h =>
            obtain ⟨rfl, rfl⟩ := h
            exact List.prefix_refl _
        · exact behind p (List.mem_cons_of_mem _ hp)
      have same : (fun topic' partition' =>
          if (topic', partition') ∈ rest then published topic' partition'
          else s₁.shared.records topic' partition') = fun topic' partition' =>
          if (topic', partition') ∈ (topic, partition) :: rest then published topic' partition'
          else s.shared.records topic' partition' := by
        funext topic' partition'
        rw [hrecords₁]
        by_cases h : topic' = topic ∧ partition' = partition
        · obtain ⟨rfl, rfl⟩ := h
          simp
        · simp [h]
      exact .trans (reaches_appended s topic partition values) (same ▸ ih s₁ behind₁)

end Loggers

/-! ## The logs of the services -/

namespace World

variable {w : World}

/-- What has been published on a partition. -/
def published (w : World) (topic : String) (partition : ℕ) : List (Option (Option Json)) :=
  (w.events topic partition).map fun value => some (some value)

theorem getElem?_published {topic : String} {partition offset : ℕ} {value : Json}
    (h : (w.events topic partition)[offset]? = some value) :
    (w.published topic partition)[offset]? = some (some (some value)) := by
  rw [published, List.getElem?_map, h]
  rfl

/-- The partitions for the loggers on which there is something. -/
def logParts (w : World) : List (String × ℕ) :=
  ((w.log.map fun x => (x.topic, x.partition)).filter fun p => p.1 ∈ Logger.topics).dedup

theorem known_logParts {p : String × ℕ} (h : p ∈ w.logParts) : p.1 ∈ Logger.topics := by
  rw [logParts, List.mem_dedup, List.mem_filter, decide_eq_true_iff] at h
  exact h.2

theorem mem_logParts {topic : String} (known : topic ∈ Logger.topics) {partition offset : ℕ}
    {value : Json} (h : (w.events topic partition)[offset]? = some value) :
    (topic, partition) ∈ w.logParts := by
  obtain ⟨x, hx, -⟩ := List.mem_map.mp (List.mem_of_getElem? h)
  rw [List.mem_filter, Bool.and_eq_true, beq_iff_eq, beq_iff_eq] at hx
  obtain ⟨hx, rfl, rfl⟩ := hx
  rw [logParts, List.mem_dedup, List.mem_filter, decide_eq_true_iff]
  exact ⟨List.mem_map_of_mem hx, known⟩

end World

namespace Services

variable {kind : RepositoryKind} {sha256 : String → String} {uuid : ℕ → String} {init : World}
  {allowed : Services → Action Reply JsError ServiceJob → Prop} {s : Services}

/-- What the services publish for the loggers is a log. -/
theorem ne_null_of_published (run : (services kind sha256 uuid).Run allowed init s)
    (fresh : init.Fresh) {topic : String} (known : topic ∈ Logger.topics) {partition offset : ℕ}
    {value : Json} (h : (s.shared.events topic partition)[offset]? = some value) :
    value ≠ .null := by
  obtain ⟨x, hx, rfl⟩ := List.mem_map.mp (List.mem_of_getElem? h)
  rw [List.mem_filter, Bool.and_eq_true, beq_iff_eq] at hx
  obtain ⟨hx, rfl, -⟩ := hx
  obtain hlogs | herrors := List.mem_cons.mp known
  · obtain ⟨o, -, reports⟩ := reported run fresh x hx hlogs
    intro hnull
    have htrace := reports.traceId
    rw [hnull] at htrace
    cases htrace
  · obtain ⟨traceId, error, hvalue⟩ := complaints run fresh x hx (List.mem_singleton.mp herrors)
    rw [hvalue]
    exact Json.noConfusion

/-- Every log that the services have published can still be found, in whatever state they and the
loggers are, unless Elasticsearch has failed for it. -/
theorem logs_can_be_found (run : (services kind sha256 uuid).Run allowed init s)
    (fresh : init.Fresh) {start : LogWorld} {l : Loggers}
    {permitted : Loggers → Action LogReply JsError Batch → Prop}
    (reading : loggers.Run permitted start l)
    (bounded : ∀ topic partition,
      start.resolved topic partition ≤ (start.records topic partition).length)
    (carries : Carries s.shared l.shared) :
    ∃ l' : Loggers, loggers.Reaches (fun _ _ => True) l l' ∧ Carries s.shared l'.shared ∧
      ∀ topic ∈ Logger.topics, ∀ partition offset value,
        start.resolved topic partition ≤ offset →
        (s.shared.events topic partition)[offset]? = some value →
        ∃ x, Holds x value ∧ (x ∈ l'.shared.documents ∨
          ∃ pid e, (pid, ⟨.index x.1 x.2, .error e⟩) ∈ l.history) := by
  have behind (p : String × ℕ) (hp : p ∈ s.shared.logParts) :
      l.shared.records p.1 p.2 <+: s.shared.published p.1 p.2 :=
    carries p.1 (World.known_logParts hp) p.2
  -- what is missing is handed on, ...
  let l₁ : Loggers :=
    { l with shared := l.shared.holding fun topic partition =>
        if (topic, partition) ∈ s.shared.logParts then s.shared.published topic partition
        else l.shared.records topic partition }
  have reaches₁ : loggers.Reaches (fun _ _ => True) l l₁ := Loggers.reaches_supplied l _ behind
  have grows (topic : String) (partition : ℕ) :
      l.shared.records topic partition <+: l₁.shared.records topic partition := by
    change _ <+: if _ then _ else _
    split
    · next hp => exact behind _ hp
    · exact List.prefix_refl _
  have within (topic : String) (partition : ℕ) :
      l₁.shared.resolved topic partition ≤ (l₁.shared.records topic partition).length :=
    (Loggers.covered reading bounded topic partition).bounded.trans
      (grows topic partition).length_le
  -- ... and all of it is read
  obtain ⟨l', reaches, read, -⟩ := Loggers.reaches_ends l₁ within
    (fun _ hp => World.known_logParts hp) (List.nodup_dedup _) ""
  refine ⟨l', reaches₁.trans reaches, ?_, ?_⟩
  · intro topic known partition
    rw [read.records]
    change (if _ then _ else _) <+: _
    split
    · exact List.prefix_refl _
    · exact carries topic known partition
  · intro topic known partition offset value hlo hvalue
    have hp := World.mem_logParts known hvalue
    have notNull := ne_null_of_published run fresh known hvalue
    have hrecord : (l₁.shared.records topic partition)[offset]? = some (some (some value)) := by
      change (if _ then _ else _)[offset]? = _
      rw [if_pos hp]
      exact World.getElem?_published hvalue
    by_cases hhi : offset < l.shared.resolved topic partition
    · -- it has been passed before
      have covered := Loggers.covered reading bounded topic partition
      have hpassed := List.getElem?_eq_getElem (hhi.trans_le covered.bounded)
      have settled := covered.holds offset _ hlo hhi hpassed
      have hsame := (Lookup.getElem?_of_grows (grows topic partition) hpassed).symm.trans hrecord
      rw [Option.some.inj hsame] at settled
      obtain ⟨x, holds, stored | failed⟩ := settled value rfl notNull
      · refine ⟨x, holds, .inl ?_⟩
        rw [read.documents]
        exact List.mem_append_left _ stored
      · exact ⟨x, holds, .inr failed⟩
    · have hparse : LogConsumerService.parse (some (some value)) = .ok value := rfl
      obtain ⟨x, hdocuments, holds⟩ := Logger.documentsOf_of_log "" hparse notNull
      have hunread : some (some value) ∈ l₁.shared.unread topic partition := by
        have hoffset : l₁.shared.resolved topic partition +
            (offset - l₁.shared.resolved topic partition) = offset :=
          Nat.add_sub_cancel' (not_lt.mp hhi)
        rw [LogWorld.unread]
        refine List.mem_of_getElem? (i := offset - l₁.shared.resolved topic partition) ?_
        rw [List.getElem?_drop, hoffset, hrecord]
      refine ⟨x, holds, .inl ?_⟩
      rw [read.documents]
      exact List.mem_append_right _ (List.mem_flatMap.mpr ⟨_, hp, List.mem_flatMap.mpr
        ⟨_, hunread, hdocuments ▸ List.mem_singleton_self x⟩⟩)

end Services

/-- Loggers that have just been started. -/
def idleLoggers : Loggers := Pool.initial { records := fun _ _ => [] }

/-- They can find both logs of the order. -/
theorem logs_can_be_found_order :
    ((orderTried .interface unreachable).shared.events "logs" 0).map
        (fun value => value.stringField "service") = [some "router", some "aggregator"] ∧
      ∃ l' : Loggers, loggers.Reaches (fun _ _ => True) idleLoggers l' ∧
        ∀ (offset : ℕ) (value : Json),
          ((orderTried .interface unreachable).shared.events "logs" 0)[offset]? = some value →
          ∃ x ∈ l'.shared.documents, Holds x value := by
  have reading : loggers.Run (fun _ _ => True) { records := fun _ _ => [] } idleLoggers := .initial
  obtain ⟨l', reaches, -, found⟩ := Services.logs_can_be_found
    (run_orderTried .interface unreachable) World.fresh_empty reading (fun _ _ => le_rfl)
    fun _ _ _ => List.nil_prefix
  refine ⟨by decide, l', reaches, fun offset value hvalue => ?_⟩
  obtain ⟨x, holds, stored | ⟨pid, e, failed⟩⟩ :=
    found "logs" (by decide) 0 offset value (Nat.zero_le _) hvalue
  · exact ⟨x, stored, holds⟩
  · cases failed

end Notification
