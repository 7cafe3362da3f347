import Notification.Aggregator.ProviderSuccessRates
import Notification.System.Deployed
import Notification.System.Delivered

/-!
# The reported success rates and the real ones

A row that is marked as sent stands for a message that its provider has taken, so no rate is
reported higher than it is. It may be reported lower: as the system is deployed nothing is ever
marked, and all rates are zero.
-/

namespace Notification

open Interaction AttemptMetrics IdempotencyMetricsService

namespace World

variable (w : World) (recent : MessageRow → Bool)

/-- The provider of the row's channel has taken the message. -/
def hasTaken (r : MessageRow) : Bool :=
  w.inbox.any fun x => x.message.messageId == r.messageId && x.outcome.isOk &&
    match ProviderFactory.getProvider r.channel with
    | .ok provider => provider.name == x.provider
    | .error _ => false

/-- How many percent of the recent rows of a channel stand for messages that were taken. -/
def takenRate (channel : String) : ℚ :=
  percent ((w.db.recentOf recent channel).countP w.hasTaken) (w.db.recentOf recent channel).length

end World

namespace Services

variable {kind : RepositoryKind} {sha256 : String → String} {uuid : ℕ → String} {init : World}
  {allowed : Services → Action Reply JsError ServiceJob → Prop} {s : Services}

theorem row_of_recentOf {db : Database} {recent : MessageRow → Bool} {channel : String}
    {r : MessageRow} (h : r ∈ db.recentOf recent channel) : r ∈ db.rows :=
  Database.mem_rows.mpr (.inl (List.mem_of_mem_filter (List.mem_of_mem_filter h)))

/-- A row that is marked as sent has been taken. -/
theorem hasTaken_of_sent (run : (services kind sha256 uuid).Run allowed init s)
    (fresh : init.Fresh) (injective : Function.Injective uuid) {r : MessageRow}
    (hr : r ∈ s.shared.db.rows) (sent : r.status = .sent) : s.shared.hasTaken r = true := by
  obtain ⟨o, -, status, finalDelivered, attemptCount, stage, rfl⟩ :=
    (traceable run fresh).rows.rows r hr
  have delivered : finalDelivered = true := by
    obtain rfl : status = .sent := sent
    cases stage
    rfl
  obtain ⟨o', -, stored, x, member, hsent, result, accepted⟩ :=
    inbox_of_delivered run fresh injective hr delivered
  obtain ⟨_, _, _, -, hrow⟩ := stored
  have hid : x.message.messageId = (o.row sha256).messageId := by
    rw [hsent.message]
    exact (congrArg MessageRow.messageId hrow).symm
  have hchannel : (o.row sha256).channel = o'.request.channel := congrArg MessageRow.channel hrow
  refine List.any_eq_true.mpr ⟨x, member, ?_⟩
  simp [hid, hchannel, accepted, hsent.provider, Except.isOk, Except.toBool]

/-- In every state of every run, no rate is reported higher than it is. As the system is deployed,
every rate is reported as zero. -/
theorem rates_understate (run : (services kind sha256 uuid).Run allowed init s)
    (fresh : init.Fresh) (injective : Function.Injective uuid) (recent : MessageRow → Bool)
    {arrange : List (String × List MessageRow) → List (String × List MessageRow)}
    (arranges : ∀ groups, (arrange groups).Perm groups) :
    ∃ rates, getProviderSuccessRates.run (Database.answerRates recent arrange) s.shared.db =
        (.ok rates, s.shared.db) ∧
      ∀ channel ∈ channels, 0 ≤ rates.of channel ∧
        rates.of channel ≤ s.shared.takenRate recent channel ∧
        s.shared.takenRate recent channel ≤ 100 ∧
        (kind = .statements → rates.of channel = 0) := by
  refine ⟨_, run_getProviderSuccessRates arranges, ?_⟩
  intro channel hchannel
  have hrate : ProviderSuccessRates.of
      { email := sentRate (s.shared.db.recentOf recent "email"),
        sms := sentRate (s.shared.db.recentOf recent "sms"),
        whatsapp := sentRate (s.shared.db.recentOf recent "whatsapp") } channel =
      sentRate (s.shared.db.recentOf recent channel) := by
    simp only [channels, List.mem_cons, List.not_mem_nil, or_false] at hchannel
    rcases hchannel with rfl | rfl | rfl <;> rfl
  rw [hrate]
  have taken : (s.shared.db.recentOf recent channel).countP (fun r => r.status == .sent) ≤
      (s.shared.db.recentOf recent channel).countP s.shared.hasTaken := by
    apply List.countP_mono_left
    intro r hr sent
    exact hasTaken_of_sent run fresh injective (row_of_recentOf hr) (eq_of_beq sent)
  have real : (s.shared.db.recentOf recent channel).countP s.shared.hasTaken ≤
      (s.shared.db.recentOf recent channel).length := List.countP_le_length
  refine ⟨?_, ?_, ?_, ?_⟩
  · exact (percent_bounds (Nat.cast_nonneg _) (Nat.cast_le.mpr (taken.trans real))).1
  · exact percent_mono (Nat.cast_le.mpr taken) _
  · exact (percent_bounds (Nat.cast_nonneg _) (Nat.cast_le.mpr real)).2
  · rintro rfl
    have none : (s.shared.db.recentOf recent channel).countP (fun r => r.status == .sent) = 0 := by
      rw [List.countP_eq_zero]
      intro r hr
      simp [((untouched run fresh).rows.rows r (row_of_recentOf hr)).1]
    simp [sentRate, none, percent]

end Services

/-- The provider has taken the order, and none of it is reported. -/
theorem rates_understate_order :
    (orderTried .statements (.ok ⟨true, none⟩)).shared.takenRate (fun _ => true) "sms" = 100 ∧
    ∃ rates, getProviderSuccessRates.run (Database.answerRates (fun _ => true) List.reverse)
        (orderTried .statements (.ok ⟨true, none⟩)).shared.db =
          (.ok rates, (orderTried .statements (.ok ⟨true, none⟩)).shared.db) ∧
      rates.of "sms" = 0 := by
  constructor
  · have hcount : ((orderTried .statements (.ok ⟨true, none⟩)).shared.db.recentOf
        (fun _ => true) "sms").countP (orderTried .statements (.ok ⟨true, none⟩)).shared.hasTaken =
          1 := by decide
    have hlength : ((orderTried .statements (.ok ⟨true, none⟩)).shared.db.recentOf
        (fun _ => true) "sms").length = 1 := by decide
    rw [World.takenRate, hcount, hlength]
    norm_num [percent, round_eq]
  · obtain ⟨rates, hrun, hrates⟩ := Services.rates_understate
      (run_orderTried .statements (.ok ⟨true, none⟩)) World.fresh_empty repr_injective
      (fun _ => true) fun groups => List.reverse_perm groups
    exact ⟨rates, hrun, (hrates "sms" (by decide)).2.2.2 rfl⟩

end Notification
