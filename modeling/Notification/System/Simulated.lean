import Notification.Aggregator.Providers
import Notification.System.Delivered

/-!
# The services with the providers that are shipped

A provider that is configured to fail is never taken for one that has delivered, and one that
is configured to succeed never fails.
-/

namespace Notification

open Interaction Program

/-- The answers to provider calls are those of the simulated providers. -/
def Simulates (env : String → Option String) (stringify : Json → String) (ev : CallEvent) : Prop :=
  ∀ provider recipient body options m r, ev = ⟨.send provider recipient body options m, r⟩ →
    ∃ p draw, (IProvider.mk provider).simulated env = some p ∧ draw.Fair ∧
      r = p.send stringify draw recipient body options

/-- The steps of a system whose providers are the simulated ones. -/
def Simulated (env : String → Option String) (stringify : Json → String) (_ : Services) :
    Action Reply JsError ServiceJob → Prop
  | .turn _ ev => Simulates env stringify ev
  | _ => True

namespace Services

variable {kind : RepositoryKind} {sha256 : String → String} {uuid : ℕ → String} {init : World}
  {env : String → Option String} {stringify : Json → String} {s : Services}

theorem simulates_of_run
    (run : (services kind sha256 uuid).Run (Simulated env stringify) init s) {ev : CallEvent}
    (member : ev ∈ s.history.map Prod.snd) : Simulates env stringify ev := by
  obtain ⟨⟨pid, ev⟩, hx, rfl⟩ := List.mem_map.mp member
  have coherent := run.coherent
  obtain ⟨proc, hproc⟩ : ∃ proc, s.procs[pid]? = some proc :=
    ⟨_, List.getElem?_eq_getElem (coherent.started pid ev hx)⟩
  apply run.events (fun _ _ _ _ _ permitted => permitted) pid proc hproc ev
  rw [← coherent.traces pid proc hproc]
  exact mem_own.mpr hx

theorem simulated_of_inbox
    (run : (services kind sha256 uuid).Run (Simulated env stringify) init s) (fresh : init.Fresh)
    {x : Sending} (hx : x ∈ s.shared.inbox) :
    ∃ p draw, (IProvider.mk x.provider).simulated env = some p ∧ draw.Fair ∧
      x.outcome = p.send stringify draw x.recipient x.body x.options := by
  rw [inbox_eq run fresh] at hx
  obtain ⟨⟨call, outcome⟩, member, hsending⟩ := List.mem_filterMap.mp hx
  cases call with
  | send provider recipient body options m =>
      cases hsending
      exact simulates_of_run run (List.mem_reverse.mp member) _ _ _ _ _ _ rfl
  | _ => cases hsending

/-- With the providers that are shipped, a row is delivered only by a provider that is able to,
which has reported a success; and the calls of a provider that cannot fail never fail. -/
theorem simulated_truthful
    (run : (services kind sha256 uuid).Run (Simulated env stringify) init s) (fresh : init.Fresh)
    (injective : Function.Injective uuid) :
    (∀ r ∈ s.shared.db.rows, r.finalDelivered = true →
      ∃ provider p, ProviderFactory.getProvider r.channel = .ok provider ∧
        provider.simulated env = some p ∧ ¬ p.Unable ∧
        ∃ x ∈ s.shared.inbox, x.provider = provider.name ∧ x.message.messageId = r.messageId ∧
          ∃ result, x.outcome = .ok result ∧ result.success = true) ∧
    ∀ x ∈ s.shared.inbox, ∀ p, (IProvider.mk x.provider).simulated env = some p →
      p.simulateFailure = false → (∃ rate, p.successRate = some rate ∧ 100 ≤ rate) →
        ∃ result, x.outcome = .ok result ∧ result.success = true := by
  constructor
  · intro r hr delivered
    obtain ⟨o, -, stored, x, hx, sent, result, houtcome⟩ :=
      inbox_of_delivered run fresh injective hr delivered
    obtain ⟨p, draw, hp, fair, hsend⟩ := simulated_of_inbox run fresh hx
    obtain ⟨success, able⟩ := SimulatedProvider.of_send_ok fair (hsend.symm.trans houtcome)
    obtain ⟨_, _, _, _, rfl⟩ := stored
    refine ⟨_, p, sent.provider, hp, able, x, hx, rfl, ?_, result, houtcome, success⟩
    rw [sent.message]
    rfl
  · intro x hx p hp hfailure ⟨rate, hrate, certain⟩
    obtain ⟨p', draw, hp', fair, hsend⟩ := simulated_of_inbox run fresh hx
    obtain rfl : p = p' := Option.some.inj (hp.symm.trans hp')
    exact ⟨_, hsend.trans (SimulatedProvider.send_ok fair hfailure hrate certain), rfl⟩

end Services

/-! ## Certain calls -/

/-- Every rate is configured to be 100, ... -/
def certain (_ : String) : Option String := some "100"

theorem certain_SMSProvider : (SMSProvider certain).successRate = some 100 := by decide

/-- ... and so every call succeeds. -/
def succeeding (_ : Services) : Action Reply JsError ServiceJob → Bool
  | .turn _ ⟨.send provider _ _ _ _, .ok result⟩ =>
    provider == "SMSProvider" && result == ⟨true, some "sent"⟩
  | .turn _ ⟨.send .., .error _⟩ => false
  | _ => true

theorem simulated_of_succeeding (s : Services) (a : Action Reply JsError ServiceJob)
    (h : succeeding s a = true) : Simulated certain (fun _ => "sent") s a := by
  cases a with
  | turn pid ev =>
      rintro provider recipient body options m r rfl
      cases r with
      | error e => cases h
      | ok result =>
          have hsms : (provider == "SMSProvider" && result == ⟨true, some "sent"⟩) = true := h
          obtain ⟨hprovider, hresult⟩ := (Bool.and_eq_true _ _).mp hsms
          obtain rfl := beq_iff_eq.mp hprovider
          obtain rfl := beq_iff_eq.mp hresult
          have fair : Draw.Fair ⟨0, "", 0, ""⟩ := ⟨le_rfl, one_pos⟩
          have hsend : (SMSProvider certain).send (fun _ => "sent") ⟨0, "", 0, ""⟩ recipient body
              options = .ok ⟨true, some "sent"⟩ :=
            SimulatedProvider.send_ok fair rfl certain_SMSProvider le_rfl
          exact ⟨SMSProvider certain, _, rfl, fair, hsend.symm⟩
  | _ => trivial

/-- The order is served and sent. -/
def orderSimulated : Services :=
  Services.after .interface succeeding (.ok ⟨true, some "sent"⟩) (.batch (orderBatch .interface))
    40 (Services.after .interface succeeding (.ok ⟨true, some "sent"⟩) (.request orderShipped) 20
      (Pool.initial {}))

theorem run_orderSimulated :
    (services .interface id toString).Run (Simulated certain fun _ => "sent") {}
      orderSimulated := by
  apply Services.run_after simulated_of_succeeding
  · apply Services.run_after simulated_of_succeeding .initial
    · trivial
    · trivial
  · exact offers_orderBatch .interface
  · trivial

theorem simulated_truthful_order :
    ((∀ r ∈ orderSimulated.shared.db.rows, r.finalDelivered = true →
        ∃ provider p, ProviderFactory.getProvider r.channel = .ok provider ∧
          provider.simulated certain = some p ∧ ¬ p.Unable ∧
          ∃ x ∈ orderSimulated.shared.inbox, x.provider = provider.name ∧
            x.message.messageId = r.messageId ∧
            ∃ result, x.outcome = .ok result ∧ result.success = true) ∧
      ∀ x ∈ orderSimulated.shared.inbox, ∀ p,
        (IProvider.mk x.provider).simulated certain = some p → p.simulateFailure = false →
          (∃ rate, p.successRate = some rate ∧ 100 ≤ rate) →
            ∃ result, x.outcome = .ok result ∧ result.success = true) ∧
    orderSimulated.shared.db.rows.map MessageRow.finalDelivered = [true] :=
  ⟨Services.simulated_truthful run_orderSimulated World.fresh_empty repr_injective, by decide⟩

end Notification
