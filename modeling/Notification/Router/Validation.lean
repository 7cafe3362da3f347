import Mathlib.Computability.RegularExpressions
import Notification.Js.Text
import Notification.Router.Message

/-!
# Request validation

The e-mail pattern is a regular expression over four classes of characters, the
ones its character sets distinguish.
-/

namespace Notification

inductive CharClass where
  | at
  | dot
  | space
  | other
  deriving DecidableEq, Repr

def CharClass.of (c : Char) : CharClass :=
  if c = '@' then .at else if c = '.' then .dot else if isJsSpace c then .space else .other

namespace EmailRegex

open RegularExpression

/-- `[^\s@]` -/
def notSpaceOrAt : RegularExpression CharClass := char .dot + char .other

/-- `r+` -/
def oneOrMore (r : RegularExpression CharClass) : RegularExpression CharClass := r * r.star

/-- `/^[^\s@]+@[^\s@]+\.[^\s@]+$/` -/
def emailRegex : RegularExpression CharClass :=
  oneOrMore notSpaceOrAt * char .at * oneOrMore notSpaceOrAt * char .dot * oneOrMore notSpaceOrAt

def test (text : String) : Bool := emailRegex.rmatch (text.toList.map CharClass.of)

end EmailRegex

/-- `["email", "sms", "whatsapp"].includes(value)` -/
def isChannel : Option Json → Bool
  | some (.string s) => s ∈ ["email", "sms", "whatsapp"]
  | _ => false

/-- `value === text` -/
def isText (value : Option Json) (text : String) : Bool :=
  match value with
  | some (.string s) => s == text
  | _ => false

namespace MessageController

def missingField (r : CreateMessageRequest) : Bool :=
  !Json.truthy r.tenantId || !Json.truthy r.userId || !Json.truthy r.idempotencyKey ||
    !Json.truthy r.channel || !Json.truthy r.recipient || !Json.truthy r.body

/-- The body check. Only strings have a `trim` method. -/
def checkBody : Option Json → Except JsError Unit
  | some (.string body) =>
    if body = "" || (trim body).length = 0 then .error { message := "Empty body" } else .ok ()
  | body =>
    if Json.truthy body then .error (.typeError "request.body.trim is not a function")
    else .error { message := "Empty body" }

def validateRequest (request : CreateMessageRequest) : Except JsError Unit := do
  if missingField request then
    throw { message := "Missing required fields" }
  if !isChannel request.channel then
    throw { message := "Invalid channel" }
  if isText request.channel "email" then
    let recipient ← Json.templateText request.recipient
    if !EmailRegex.test recipient then
      throw { message := "Invalid email recipient" }
  checkBody request.body

end MessageController

end Notification
