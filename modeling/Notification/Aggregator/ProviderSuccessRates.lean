import Notification.Aggregator.MetricsReport
import Notification.Infra.MySql
import Notification.Interaction.Program
import Notification.Lookup.Grouped

/-!
# The success rates by provider

They are read from the rows of the last hour, and a row is a success if its status is `SENT`.
The groups that the database answers with come in no particular order, and a channel without
rows is not among them.
-/

namespace Notification

open Interaction Program Lookup AttemptMetrics

/-! ## The query -/

/-- A row of the answer: `SUM(CASE WHEN status = .. THEN 1 ELSE 0 END)` and `COUNT(*)` over the
rows of a channel. The driver hands the sum over as text, and the division makes it a number. -/
structure ChannelCounts where
  channel : String
  successCount : ℕ
  totalCount : ℕ

/-- The calls of `getProviderSuccessRates`: the `SELECT` is grouped by channel and says which
status is a success. -/
inductive RateCall where
  | getConnection
  | execute (success : Status)
  | release

abbrev RateCall.Reply : RateCall → Type
  | execute _ => List ChannelCounts
  | _ => Unit

namespace Database

variable (recent : MessageRow → Bool)
  (arrange : List (String × List MessageRow) → List (String × List MessageRow)) (db : Database)

/-- `createdAt > DATE_SUB(NOW(), INTERVAL 1 HOUR)`, and a channel -/
def recentOf (channel : String) : List MessageRow :=
  (db.messages.filter recent).filter fun r => r.channel == channel

def countChannels (success : Status) : List ChannelCounts :=
  (arrange (grouped MessageRow.channel (db.messages.filter recent))).map fun g =>
    { channel := g.1, successCount := g.2.countP fun r => r.status == success,
      totalCount := g.2.length }

def answerRates : (c : RateCall) → Database → Except JsError c.Reply × Database
  | .execute success, db => (.ok (db.countChannels recent arrange success), db)
  | .getConnection, db => (.ok (), db)
  | .release, db => (.ok (), db)

end Database

structure ProviderSuccessRates where
  email : ℚ
  sms : ℚ
  whatsapp : ℚ
  deriving DecidableEq, Repr

namespace IdempotencyMetricsService

/-- The rate of a channel, to two decimals. -/
def channelRate (row : ChannelCounts) : ℚ :=
  let successRate : ℚ := if 0 < row.totalCount then row.successCount / row.totalCount * 100 else 0
  round (successRate * 100) / 100

def initialRates : String → Option ℚ
  | "email" => some 0
  | "sms" => some 0
  | "whatsapp" => some 0
  | _ => none

/-- The loop over the answer. -/
def collectRates (result : List ChannelCounts) : String → Option ℚ :=
  result.foldl (fun rates row => Function.update rates row.channel (some (channelRate row)))
    initialRates

def getProviderSuccessRates : Program RateCall.Reply JsError ProviderSuccessRates := do
  perform RateCall.getConnection
  andFinally
    (do
      let result ← perform (RateCall.execute .sent)
      let rates := collectRates result
      return { email := (rates "email").getD 0, sms := (rates "sms").getD 0,
               whatsapp := (rates "whatsapp").getD 0 })
    (perform RateCall.release)

end IdempotencyMetricsService

/-! ## What is reported -/

/-- The rate of a channel that the report has. -/
def ProviderSuccessRates.of (rates : ProviderSuccessRates) : String → ℚ
  | "email" => rates.email
  | "sms" => rates.sms
  | "whatsapp" => rates.whatsapp
  | _ => 0

/-- How many percent of some rows are marked as sent. -/
def sentRate (rows : List MessageRow) : ℚ :=
  percent (rows.countP fun r => r.status == .sent) rows.length

namespace IdempotencyMetricsService

theorem channelRate_eq (row : ChannelCounts) :
    channelRate row = percent row.successCount row.totalCount := by
  have hpercent (x : ℚ) : x * 100 * 100 = x * 10000 := by ring
  rw [channelRate, percent]
  by_cases some : 0 < row.totalCount
  · simp [some, hpercent]
  · simp [some]

variable {recent : MessageRow → Bool}
  {arrange : List (String × List MessageRow) → List (String × List MessageRow)} {db : Database}

/-- In whatever order the groups come, the report has the rate of each channel. -/
theorem run_getProviderSuccessRates (arranges : ∀ groups, (arrange groups).Perm groups) :
    getProviderSuccessRates.run (Database.answerRates recent arrange) db =
      (.ok { email := sentRate (db.recentOf recent "email"),
             sms := sentRate (db.recentOf recent "sms"),
             whatsapp := sentRate (db.recentOf recent "whatsapp") }, db) := by
  have hrates (channel : String) (empty : initialRates channel = some 0) :
      (collectRates (db.countChannels recent arrange .sent) channel).getD 0 =
        sentRate (db.recentOf recent channel) := by
    have hcollect := collect_grouped (arranges (grouped MessageRow.channel
      (db.messages.filter recent))) (fun rows => some (sentRate rows)) empty
    rw [collect, List.foldl_map] at hcollect
    rw [collectRates, Database.countChannels, List.foldl_map]
    simp only [channelRate_eq]
    exact congrArg (fun rate => rate.getD 0) hcollect
  rw [← hrates "email" rfl, ← hrates "sms" rfl, ← hrates "whatsapp" rfl]
  rfl

end IdempotencyMetricsService

end Notification
