import Notification.Aggregator.DeliveryProcessorService

/-!
# The calls of one delivery

What `processDelivery` calls, block by block, when the repository has its interface meaning.
-/

namespace Notification

open Interaction Program

namespace DeliveryProcessorService

/-- The calls of the `try` block. -/
inductive TryCall (m : MessageToDeliver) (currentAttempt : Int) : Call → Prop
  | exists : TryCall m currentAttempt
      (.redis (.exists (DeliveryDeduplicationService.buildDeliveryKey m.dedupKey)))
  | setNX : TryCall m currentAttempt
      (.redis (.setNX (DeliveryDeduplicationService.buildDeliveryKey m.dedupKey) (.number 1)))
  | getStatus : TryCall m currentAttempt (.repository (.getStatus m.messageId))
  | send (provider : IProvider) : TryCall m currentAttempt
      (.send provider.name m.recipient m.body (sendOptions m currentAttempt) m)
  | markSent : TryCall m currentAttempt
      (.repository (.updateStatus m.messageId .sent true currentAttempt))
  | stringify (response : Option String) : TryCall m currentAttempt (.stringify response)
  | saveAttempt (providerResponse : Option String) : TryCall m currentAttempt
      (.repository (.saveAttempt (successAttempt m currentAttempt providerResponse)))
  | setEx : TryCall m currentAttempt
      (.redis (.setEx (DeliveryDeduplicationService.buildDeliveryKey m.dedupKey)
        DeliveryDeduplicationService.DELIVERY_CACHE_TTL (.number 1)))
  | publishLog (key : Option Json) (text : String) : TryCall m currentAttempt
      (.produce "logs" key (deliveryLog m "SENT" text currentAttempt .null) [])

/-- The calls of `handleRetry`. -/
inductive RetryCall (m : MessageToDeliver) (attemptNumber : Int) : Call → Prop
  | markPending : RetryCall m attemptNumber
      (.repository (.updateStatus m.messageId .pending false attemptNumber))
  | now : RetryCall m attemptNumber .now
  | zAdd (due : Int) : RetryCall m attemptNumber
      (.redis (.zAdd "retries" due
        (RetrySchedulerService.payload m.messageId m.channel (Number.add attemptNumber 1))))
  | publishLog (key : Option Json) (text : String) (error : Json) : RetryCall m attemptNumber
      (.produce "logs" key (deliveryLog m "RETRY_SCHEDULED" text attemptNumber error) [])

/-- The calls of `handleMaxAttemptsReached`. -/
inductive BuryCall (m : MessageToDeliver) (attemptNumber : Int) (errorMsg : String) : Call → Prop
  | markFailed : BuryCall m attemptNumber errorMsg
      (.repository (.updateStatus m.messageId .failed false attemptNumber))
  | saveDLQEntry : BuryCall m attemptNumber errorMsg
      (.repository (.saveDLQEntry
        { messageId := m.messageId, channel := m.channel, failureReason := errorMsg,
          maxAttemptsReached := true }))
  | publishDLQMessage : BuryCall m attemptNumber errorMsg
      (.produce ("dlq." ++ m.channel) (some (.string m.messageId))
        (.ofFields
          [ ("messageId", some (.string m.messageId)), ("channel", some (.string m.channel)),
            ("reason", some (.string errorMsg)) ]) [])
  | publishLog (key : Option Json) (text : String) (error : Json) :
    BuryCall m attemptNumber errorMsg
      (.produce "logs" key (deliveryLog m "FAILED" text attemptNumber error) [])
  | publishError (key : Option Json) : BuryCall m attemptNumber errorMsg
      (.produce "errors" key (deliveryError m attemptNumber errorMsg) [])

variable (m : MessageToDeliver) (n : Int) (errorMsg : String)

theorem calls_alreadyDelivered :
    (alreadyDelivered interfaceRepository m).Makes fun ev => TryCall m n ev.call := by
  refine Makes.bind (Makes.tryCatch ?_ fun _ => trivial) fun isNew => Makes.ite trivial ?_
  · refine Makes.bind (makes_perform.mpr fun _ => .exists) fun _ => Makes.ite trivial ?_
    exact Makes.bind (makes_perform.mpr fun _ => .setNX) fun _ => trivial
  · exact Makes.bind (makes_perform.mpr fun _ => .getStatus) fun _ => trivial

theorem calls_recordSuccess (result : ProviderResult) :
    (recordSuccess interfaceRepository m n result).Makes fun ev => TryCall m n ev.call := by
  apply Makes.bind (makes_perform.mpr fun _ => .markSent)
  intro _
  apply Makes.bind (makes_perform.mpr fun _ => .stringify result.response)
  intro providerResponse
  apply Makes.bind (makes_perform.mpr fun _ => .saveAttempt providerResponse)
  intro _
  refine Makes.bind (Makes.tryCatch (makes_perform.mpr fun _ => .setEx) fun _ =>
    trivial) fun _ => ?_
  exact makes_perform.mpr fun _ => .publishLog _ _

theorem calls_deliver (provider : IProvider) :
    (deliver interfaceRepository provider m n).Makes fun ev => TryCall m n ev.call := by
  refine Makes.bind (calls_alreadyDelivered m n) fun _ => Makes.ite trivial ?_
  apply Makes.bind (makes_perform.mpr fun _ => .send provider)
  intro result
  exact Makes.bind (calls_recordSuccess m n result) fun _ => trivial

theorem calls_handleRetry : (handleRetry interfaceRepository m n errorMsg).Makes
    fun ev => RetryCall m n ev.call := by
  apply Makes.bind (makes_perform.mpr fun _ => .markPending)
  intro _
  refine Makes.bind (Makes.bind (makes_perform.mpr fun _ => .now) fun _ =>
    Makes.bind (makes_done _) fun _ => makes_perform.mpr fun _ => .zAdd _) fun _ => ?_
  exact Makes.bind (makes_perform.mpr fun _ => .publishLog _ _ _) fun _ => trivial

theorem calls_handleMaxAttemptsReached : (handleMaxAttemptsReached interfaceRepository m n
    errorMsg).Makes fun ev => BuryCall m n errorMsg ev.call := by
  apply Makes.bind (makes_perform.mpr fun _ => .markFailed)
  intro _
  apply Makes.bind (makes_perform.mpr fun _ => .saveDLQEntry)
  intro _
  apply Makes.bind (makes_perform.mpr fun _ => .publishDLQMessage)
  intro _
  apply Makes.bind (makes_perform.mpr fun _ => .publishLog _ _ _)
  intro _
  exact Makes.bind (makes_perform.mpr fun _ => .publishError _) fun _ => trivial

end DeliveryProcessorService

end Notification
