import Notification.Aggregator.Worker
import Notification.Interaction.Rules

/-!
# The logger: from a Kafka record to a document of Elasticsearch

`index.ts` of the logger with its controller, service, repository and consumer. A record that
cannot be handled is skipped. The log itself is not typed: whatever JSON a record holds is
spread into the document.
-/

namespace Notification

open Interaction

/-- The external calls of the logger: the clock, as `toISOString` prints it, Elasticsearch, and
kafkajs, which counts a message as handled when `eachMessage` has returned. -/
inductive LogCall where
  | now
  | index (index : String) (document : Json)
  | resolveOffset (topic : String) (partition offset : ℕ)

abbrev LogReply : LogCall → Type
  | .now => String
  | .index .. => Unit
  | .resolveOffset .. => Unit

abbrev LogProg (α : Type) := Program LogReply JsError α

abbrev LogEvent := Event LogReply JsError

/-- `iso.split("T")[0]` -/
def dateOf (iso : String) : String := String.ofList (iso.toList.takeWhile (· != 'T'))

/-- `{ ...value }`: the fields that are copied. -/
def spread : Json → List (String × Json)
  | .object fields => fields
  | .array items => items.mapIdx fun i item => (toString i, item)
  | .string text => (codeUnits text).mapIdx fun i unit => (toString i, .string unit)
  | _ => []

/-- A property of an object literal: it overrides an earlier one of its name. -/
def setField (name : String) (value : Json) : List (String × Json) → List (String × Json)
  | [] => [(name, value)]
  | (field, old) :: rest =>
    if field = name then (name, value) :: rest else (field, old) :: setField name value rest

theorem lookup_setField (name field : String) (value : Json) (fields : List (String × Json)) :
    (setField name value fields).lookup field =
      if field = name then some value else fields.lookup field := by
  induction fields with
  | nil =>
      by_cases h : field = name
      · simp [setField, h]
      · rw [setField, List.lookup_cons, beq_false_of_ne h, if_neg h]
  | cons f rest ih =>
      obtain ⟨other, old⟩ := f
      unfold setField
      by_cases hother : other = name
      · subst hother
        by_cases h : field = other
        · simp [h]
        · rw [if_pos rfl, if_neg h, List.lookup_cons, List.lookup_cons, beq_false_of_ne h]
      · by_cases h : field = other
        · subst h
          simp [hother]
        · rw [if_neg hother, List.lookup_cons, List.lookup_cons, beq_false_of_ne h, ih]

/-- `value || fallback` -/
def Json.orElse (value fallback : Option Json) : Option Json :=
  if Json.truthy value then value else fallback

namespace ElasticsearchLogRepository

/-- `log.channel || log.service || "notification"` -/
def dataset (log : Json) : Except JsError Json :=
  match log with
  | .null => .error (.typeError "Cannot read properties of null (reading 'channel')")
  | _ =>
    let service := Json.orElse (log.get? "service") (some (.string "notification"))
    .ok ((Json.orElse (log.get? "channel") service).getD .null)

/-- `{ ...log, event: { dataset: dataset }, "@timestamp": timestamp }` -/
def document (log dataset : Json) (timestamp : String) : Json :=
  .object (setField "@timestamp" (.string timestamp)
    (setField "event" (.object [("dataset", dataset)]) (spread log)))

def save (log : Json) : LogProg Unit := do
  let today ← Program.perform LogCall.now
  let index := "logs-" ++ dateOf today
  let dataset ← Program.done (dataset log)
  let timestamp ← Program.perform LogCall.now
  Program.perform (LogCall.index index (document log dataset timestamp))

theorem dataset_of_channel {log : Json} {channel : String}
    (h : log.get? "channel" = some (.string channel)) (nonempty : channel ≠ "") :
    dataset log = .ok (.string channel) := by
  cases log with
  | object fields => simp [dataset, h, Json.orElse, Json.truthy, nonempty]
  | _ => cases h

/-- What a log says is said by its document, unless the document says something else there. -/
theorem get?_document {log : Json} {name : String} {value : Json} (h : log.get? name = some value)
    (dataset : Json) (timestamp : String) (field : String) :
    (document log dataset timestamp).get? field =
      if field = "@timestamp" then some (.string timestamp)
      else if field = "event" then some (.object [("dataset", dataset)])
      else log.get? field := by
  cases log with
  | object fields =>
      simp only [document, Json.get?, lookup_setField]
      rfl
  | _ => cases h

end ElasticsearchLogRepository

def LogPersistenceService.persistLog (log : Json) : LogProg Unit :=
  ElasticsearchLogRepository.save log

def LogController.handleLog (log : Json) : LogProg Unit :=
  LogPersistenceService.persistLog log

namespace Logger

/-- The line for the console. A field may be an object that cannot be printed. -/
def consoleLine (log : Json) : Except JsError String := do
  let level := Json.orElse (log.get? "level") (some (.string "INFO"))
  let service ← Json.templateText (log.get? "service")
  let level ← Json.templateText level
  let status ← Json.templateText (Json.orElse (log.get? "status") (log.get? "message"))
  return "[" ++ service ++ "] " ++ level ++ " - " ++ status

/-- The handler that the bootstrap passes to `consumeMultiple`. -/
def handler (log : Json) : LogProg Unit := do
  LogController.handleLog log
  let _ ← Program.done (consoleLine log)

/-- The topics that the bootstrap passes to `consumeMultiple`. -/
def topics : List String := ["logs", "errors"]

end Logger

namespace LogConsumerService

/-- `JSON.parse(value?.toString() || "{}")` -/
def parse : Option (Option Json) → Except JsError Json
  | none => .ok (.object [])
  | some none => .error (.syntaxError "Unexpected token in JSON")
  | some (some log) => .ok log

variable (handler : Json → LogProg Unit)

def eachMessage (message : KafkaMessage) : LogProg Unit :=
  try
    let log ← Program.done (parse message.value)
    handler log
  catch _ => pure ()

/-- kafkajs calls `eachMessage` for the messages of a fetch in order. -/
def runBatch (b : Batch) : LogProg Unit := do
  let _ ← Program.forEach b.messages fun message => do
    eachMessage handler message
    Program.perform (LogCall.resolveOffset b.topic b.partition message.offset)

end LogConsumerService

end Notification
