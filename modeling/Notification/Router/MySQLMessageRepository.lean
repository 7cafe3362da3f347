import Notification.Aggregator.DeliveryRepository
import Notification.Interaction.Link
import Notification.Router.AcceptMessageUseCase

/-!
# MySQLMessageRepository: how the use case saves a message

The calls of `AcceptMessageUseCase` are made on the shared infrastructure; `save` runs the
statement of the repository.
-/

namespace Notification

open Interaction Program

namespace MySQLMessageRepository

variable (stringify : Json → String)

/-- A bound value. An object is sent as its JSON text, and of a number that is no integer the
text is kept. -/
def bind : Json → SqlValue
  | .null => .null
  | .bool b => .boolean b
  | .number n => .number n
  | .string s => .string s
  | value => .string (stringify value)

def insertMessage (message : Message) : Statement :=
  .insert .messages
    ["messageId", "dedupKey", "userId", "tenantId", "channel", "recipient", "body", "status"]
    [ .param (some (.string message.messageId)), .param (some (.string message.dedupKey)),
      .param (message.userId.map (bind stringify)), .param (message.tenantId.map (bind stringify)),
      .param (message.channel.map (bind stringify)),
      .param (message.recipient.map (bind stringify)), .param (message.body.map (bind stringify)),
      .literal (.string "PENDING") ]

def save (message : Message) : Prog Unit :=
  withConnection (Connection.execute (insertMessage stringify message))

/-- The schema wants an idempotency key, which the statement does not give. -/
theorem check_insertMessage (message : Message) :
    (insertMessage stringify message).check ≠ none := by
  intro h
  have homits := (Statement.check_eq_none.mp h).2.2.1
  have hnone : (insertMessage stringify message).omits =
      some (SqlError.noDefault "idempotencyKey") := rfl
  rw [hnone] at homits
  cases homits

end MySQLMessageRepository

/-- The calls of the use case on the shared infrastructure. -/
def AcceptMessageUseCase.infrastructure (stringify : Json → String) :
    (c : IngressCall) → Prog c.Reply
  | .exists key => RedisClient.exists key
  | .set key value seconds => RedisClient.setEx key seconds value
  | .uuidv4 => uuidv4
  | .save message => MySQLMessageRepository.save stringify message
  | .produce topic key value headers => produce topic key value headers

end Notification
