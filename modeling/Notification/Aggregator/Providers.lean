import Mathlib.Data.Rat.Cast.Order
import Mathlib.Tactic.Linarith
import Mathlib.Tactic.NormNum
import Notification.Aggregator.Services

/-!
# The providers that are shipped

The three providers do not reach anybody. They are configured by environment variables, toss a
coin for each call, and either throw or report a success.
-/

namespace Notification

/-- What `Math.random` and the clock say during one call. The digits of the second number that
is drawn end the provider's id. -/
structure Draw where
  random : ℚ
  digits : String
  now : Int
  timestamp : String

/-- `Math.random()` is at least 0 and less than 1. -/
def Draw.Fair (draw : Draw) : Prop := 0 ≤ draw.random ∧ draw.random < 1

/-- A provider as its constructor leaves it. The rate is in percent; `none` is `NaN`. -/
structure SimulatedProvider where
  successRate : Option Int
  simulateFailure : Bool
  tag : String
  service : String
  provider : String
  idPrefix : String
  recipientField : String
  deriving DecidableEq, Repr

namespace Number

/-- `n / 100`. The quotient is cut off far behind the digits that count, and its last digit says
whether anything was left. -/
def hundredth (n : ℕ) : ℚ :=
  let scaled := n * 2 ^ 60
  let quotient := 2 * (scaled / 100) + if scaled % 100 = 0 then 0 else 1
  (roundNat quotient : ℚ) / 2 ^ 61

def percent : Int → ℚ
  | .ofNat n => hundredth n
  | .negSucc n => -hundredth (n + 1)

theorem hundredth_nonneg (n : ℕ) : 0 ≤ hundredth n :=
  div_nonneg (Nat.cast_nonneg _) (by norm_num)

theorem percent_nonpos {rate : Int} (h : rate ≤ 0) : percent rate ≤ 0 := by
  cases rate with
  | ofNat n =>
      obtain rfl : n = 0 := by
        rw [Int.ofNat_eq_natCast] at h
        omega
      exact le_of_eq (by norm_num [percent, hundredth, roundNat])
  | negSucc n => exact neg_nonpos.mpr (hundredth_nonneg (n + 1))

theorem one_le_percent {rate : Int} (h : 100 ≤ rate) : 1 ≤ percent rate := by
  obtain ⟨n, rfl⟩ := Int.eq_ofNat_of_zero_le (show 0 ≤ rate by omega)
  change 1 ≤ hundredth n
  have hscaled : 2 ^ 60 ≤ n * 2 ^ 60 / 100 := by omega
  have rounded := two_pow_le_roundNat (k := 61) (by decide)
    (show 2 ^ 61 ≤ 2 * (n * 2 ^ 60 / 100) + if n * 2 ^ 60 % 100 = 0 then 0 else 1 by omega)
  rw [hundredth, le_div_iff₀ (by norm_num), one_mul]
  exact_mod_cast rounded

end Number

/-- `parseInt(setting || rate)` -/
def configuredRate (setting : Option String) (rate : String) : Option Int :=
  match setting with
  | some text => parseInt (if text = "" then rate else text)
  | none => parseInt rate

section Constructors

variable (env : String → Option String)

def EmailProvider : SimulatedProvider where
  successRate := configuredRate (env "EMAIL_SUCCESS_RATE") "80"
  simulateFailure := env "EMAIL_SIMULATE_FAILURE" == some "true"
  tag := "EMAIL"
  service := "Email"
  provider := "email-provider-v1"
  idPrefix := "email-"
  recipientField := "recipient"

def SMSProvider : SimulatedProvider where
  successRate := configuredRate (env "SMS_SUCCESS_RATE") "85"
  simulateFailure := env "SMS_SIMULATE_FAILURE" == some "true"
  tag := "SMS"
  service := "SMS"
  provider := "sms-provider-v1"
  idPrefix := "sms-"
  recipientField := "phone"

def WhatsAppProvider : SimulatedProvider where
  successRate := configuredRate (env "WHATSAPP_SUCCESS_RATE") "90"
  simulateFailure := env "WHATSAPP_SIMULATE_FAILURE" == some "true"
  tag := "WHATSAPP"
  service := "WhatsApp"
  provider := "whatsapp-provider-v1"
  idPrefix := "wa-"
  recipientField := "whatsappId"

/-- The instance behind the name of a provider. -/
def IProvider.simulated (provider : IProvider) : Option SimulatedProvider :=
  match provider.name with
  | "EmailProvider" => some (EmailProvider env)
  | "SMSProvider" => some (SMSProvider env)
  | "WhatsAppProvider" => some (WhatsAppProvider env)
  | _ => none

end Constructors

namespace SimulatedProvider

variable (p : SimulatedProvider) (stringify : Json → String) (draw : Draw)

/-- `Math.random() < this.successRate`; no number is less than `NaN`. -/
def succeeds : Bool :=
  match p.successRate with
  | some rate => draw.random < Number.percent rate
  | none => false

def response (recipient : String) (options : IdempotencyOptions) : Json :=
  let id := if options.idempotencyToken = "" then toString draw.now else options.idempotencyToken
  .ofFields
    [ ("status", some (.string "sent")), ("provider", some (.string p.provider)),
      ("providerId", some (.string (p.idPrefix ++ id ++ "-" ++ draw.digits))),
      ("timestamp", some (.string draw.timestamp)),
      (p.recipientField, some (.string recipient)) ]

/-- The text of the rate, as `toFixed(0)` gives it. -/
def rateText : String :=
  match p.successRate with
  | some rate => toString rate
  | none => "NaN"

/-- The body of the message is not looked at. -/
def send (recipient _body : String) (options : IdempotencyOptions) :
    Except JsError ProviderResult :=
  if p.simulateFailure then
    .error { message := "[" ++ p.tag ++ "-SIMULATED] " ++ p.service ++
      " service failure forced by " ++ p.tag ++ "_SIMULATE_FAILURE=true" }
  else if p.succeeds draw then
    .ok { success := true, response := some (stringify (p.response draw recipient options)) }
  else
    let attempt := if options.attemptNumber = 0 then 1 else options.attemptNumber
    .error { message := "[" ++ p.tag ++ "] " ++ p.service ++ " delivery failed (Success Rate: " ++
      p.rateText ++ "%, attempt: " ++ toString attempt ++ ")" }

/-- Failures are forced, or the rate is no positive number. -/
def Unable : Prop := p.simulateFailure = true ∨ ∀ rate, p.successRate = some rate → rate ≤ 0

instance : Decidable p.Unable :=
  match h : p.successRate with
  | some rate => decidable_of_iff (p.simulateFailure = true ∨ rate ≤ 0) (by simp [Unable, h])
  | none => .isTrue (.inr fun rate hrate => by simp [h] at hrate)

variable {p stringify draw}

/-- Whoever gets an answer from such a provider is told of a success. -/
theorem of_send_ok {recipient body : String} {options : IdempotencyOptions}
    {result : ProviderResult} (fair : draw.Fair)
    (h : p.send stringify draw recipient body options = .ok result) :
    result.success = true ∧ ¬ p.Unable := by
  unfold send at h
  split at h
  · cases h
  · next hfailure =>
    split at h
    · next hsucceeds =>
      cases h
      refine ⟨rfl, ?_⟩
      rintro (hforced | hrate)
      · exact hfailure hforced
      · unfold succeeds at hsucceeds
        split at hsucceeds
        · next rate heq =>
            have hlt : draw.random < Number.percent rate := of_decide_eq_true hsucceeds
            exact absurd (hlt.trans_le (Number.percent_nonpos (hrate rate heq))) fair.1.not_gt
        · cases hsucceeds
    · cases h

/-- A provider that is configured for every call to succeed never throws. -/
theorem send_ok {recipient body : String} {options : IdempotencyOptions} {rate : Int}
    (fair : draw.Fair) (hfailure : p.simulateFailure = false) (hrate : p.successRate = some rate)
    (certain : 100 ≤ rate) :
    p.send stringify draw recipient body options = .ok
      { success := true, response := some (stringify (p.response draw recipient options)) } := by
  have hsucceeds : p.succeeds draw = true := by
    rw [succeeds, hrate]
    exact decide_eq_true (fair.2.trans_le (Number.one_le_percent certain))
  simp [send, hfailure, hsucceeds]

end SimulatedProvider

end Notification
