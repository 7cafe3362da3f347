import Mathlib.Data.Set.Operations
import Notification.Aggregator.Writers
import Notification.Lookup.Separated
import Notification.Pipeline.Handover

/-!
# What a dedup key says about the content

The key is a hash of the body, the user, the recipient and the tenant, joined with colons. A
colon may also occur in each of them, so different contents may be hashed as one text. The
table then refuses the second one as a duplicate of the first.
-/

namespace Notification

open Interaction Program Lookup

/-- What the dedup key is made of. -/
structure Content where
  body : String
  userId : String
  recipient : String
  tenantId : String
  deriving DecidableEq, Repr

namespace Content

/-- The text that is hashed. -/
def text (c : Content) : String :=
  c.body ++ ":" ++ c.userId ++ ":" ++ c.recipient ++ ":" ++ c.tenantId

def fields (c : Content) : List (List Char) :=
  [c.body.toList, c.userId.toList, c.recipient.toList, c.tenantId.toList]

/-- The same pieces between colons, but not the same number of colons in every field. -/
def Recut (c c' : Content) : Prop := Lookup.Recut ':' c.fields c'.fields

instance (c c' : Content) : Decidable (c.Recut c') := inferInstanceAs (Decidable (Lookup.Recut ..))

variable {c c' : Content}

theorem fields_inj : c.fields = c'.fields ↔ c = c' := by
  constructor
  · intro h
    cases c
    cases c'
    simpa [fields, String.toList_inj] using h
  · rintro rfl
    rfl

theorem text_inj : c.text = c'.text ↔ [':'].intercalate c.fields = [':'].intercalate c'.fields := by
  have joined (c : Content) : c.text.toList = [':'].intercalate c.fields := by
    simp [text, fields]
  rw [← joined, ← joined, String.toList_inj]

/-- Contents are told apart by their texts exactly if they are no recut of each other. -/
theorem text_identifies_iff : (c.text = c'.text → c = c') ↔ ¬ c.Recut c' := by
  rw [text_inj, ← fields_inj]
  exact intercalate_identifies_iff (List.cons_ne_nil _ _) (List.cons_ne_nil _ _)

theorem not_recut_self : ¬ c.Recut c := fun h => h.2 rfl

theorem Recut.text_eq (h : c.Recut c') : c.text = c'.text :=
  text_inj.mpr ((intercalate_eq_iff (List.cons_ne_nil _ _) (List.cons_ne_nil _ _)).mpr h.1)

end Content

def TextRequest.content (r : TextRequest) : Content := ⟨r.body, r.userId, r.recipient, r.tenantId⟩

def MessageRow.content (r : MessageRow) : Content := ⟨r.body, r.userId, r.recipient, r.tenantId⟩

/-- What the router takes for the dedup key of a request. -/
def TextRequest.generated (sha256 : String → String) (r : TextRequest) : Except JsError String :=
  HashService.generateDedupKey sha256 r.toRequest.body r.toRequest.userId r.toRequest.recipient
    r.toRequest.tenantId

namespace ContentKey

section Keys

variable {sha256 : String → String} {hashed : Set String} {r r' : TextRequest}

/-- Of two texts that do not collide the keys are the same if the contents are, and the other
way round exactly if no recut is involved. -/
theorem generated_identifies_iff (collisionFree : Set.InjOn sha256 hashed)
    (h : r.content.text ∈ hashed) (h' : r'.content.text ∈ hashed) :
    (r.generated sha256 = r'.generated sha256 ↔ r.content = r'.content) ↔
      ¬ r.content.Recut r'.content := by
  have hkeys : r.generated sha256 = r'.generated sha256 ↔ r.content.text = r'.content.text := by
    rw [TextRequest.generated, TextRequest.generated, TextRequest.generateDedupKey_eq,
      TextRequest.generateDedupKey_eq, Except.ok.injEq]
    exact collisionFree.eq_iff h h'
  rw [hkeys, ← Content.text_identifies_iff]
  constructor
  · exact fun h => h.mp
  · intro h
    constructor
    · exact h
    · intro same
      rw [same]

end Keys

/-! ## Skipped inserts -/

section Inserts

variable {sha256 : String → String} {hashed : Set String} {uuid : ℕ → String} {conn : ℕ}
  {w : World} {m : MessageToCheckIdempotency}

/-- The `INSERT` of a message is skipped while a row that it can see has its dedup key. -/
def SkippedForKey (uuid : ℕ → String) (conn : ℕ) (w : World) (m : MessageToCheckIdempotency) :
    Prop :=
  (∃ w', Leads (World.up uuid conn) (BatchIdempotencyService.insertOne m) w
    (.done (.ok { messageId := m.messageId, status := .skippedDup })) w') ∧
  ∃ x ∈ w.db.visible conn, x.dedupKey = m.newRow.dedupKey

/-- What an `INSERT` that the schema accepts comes to. -/
theorem execute_insertMessage (accepted : (BatchIdempotencyService.insertMessage m).check = none) :
    w.db.execute conn (BatchIdempotencyService.insertMessage m) =
      w.db.insertMessage conn m.newRow := by
  obtain ⟨columns, values, hinsert, hrow⟩ := BatchIdempotencyService.insertMessage_eq m
  obtain ⟨-, rfl, rfl⟩ := Statement.insert.inj hinsert
  rw [← hrow]
  exact Database.execute_insert w.db conn accepted

theorem up_insertMessage {r : Except JsError Unit} {w' : World}
    (answer : w.up uuid conn ⟨.sql (.execute (BatchIdempotencyService.insertMessage m)), r⟩ w') :
    ∃ db, w.db.execute conn (BatchIdempotencyService.insertMessage m) = some (r, db) := by
  obtain ⟨choice, h⟩ := answer
  obtain ⟨⟨r', db⟩, hexecute, heq⟩ := Option.map_eq_some_iff.mp h
  cases heq
  exact ⟨db, hexecute⟩

/-- The error of a duplicate key comes from the schema accepting the row and another row. -/
theorem clash_of_dupEntry {e : JsError} {w' : World} (hcode : e.code = some "ER_DUP_ENTRY")
    (answer : w.up uuid conn
      ⟨.sql (.execute (BatchIdempotencyService.insertMessage m)), .error e⟩ w') :
    (BatchIdempotencyService.insertMessage m).check = none ∧
      (w.db.visible conn).any m.newRow.clashes = true := by
  obtain ⟨db, hr⟩ := up_insertMessage answer
  cases hcheck : (BatchIdempotencyService.insertMessage m).check with
  | some e' =>
      rw [Database.execute_of_check _ _ hcheck] at hr
      cases hr
      exact absurd hcode (Statement.check_code hcheck)
  | none =>
      refine ⟨rfl, ?_⟩
      rw [execute_insertMessage hcheck, Database.insertMessage] at hr
      split at hr
      · assumption
      · split at hr
        · cases hr
        · split at hr <;> cases hr

/-- An `INSERT` is skipped exactly if the schema accepts it and a visible row clashes. -/
theorem skipped_iff : (∃ w', Leads (World.up uuid conn) (BatchIdempotencyService.insertOne m) w
      (.done (.ok { messageId := m.messageId, status := .skippedDup })) w') ↔
    (BatchIdempotencyService.insertMessage m).check = none ∧
      (w.db.visible conn).any m.newRow.clashes = true := by
  constructor
  · rintro ⟨w', leads⟩
    have spec : (BatchIdempotencyService.insertOne m).wp (World.up uuid conn) (fun _ => True)
        (fun o _ => o = .ok { messageId := m.messageId, status := .skippedDup } →
          (BatchIdempotencyService.insertMessage m).check = none ∧
            (w.db.visible conn).any m.newRow.clashes = true) w := by
      intro r w'' answer
      refine ⟨trivial, ?_⟩
      cases r with
      | ok a => exact fun h => absurd h (by simp)
      | error e =>
          apply wp_ite.mpr
          constructor
          · exact fun hcode _ => clash_of_dupEntry hcode answer
          · exact fun _ h => absurd h (by simp)
    exact spec.outcome leads rfl
  · rintro ⟨hcheck, clash⟩
    have hdup : w.db.execute conn (BatchIdempotencyService.insertMessage m) =
        some (.error SqlError.dupEntry, w.db) := by
      rw [execute_insertMessage hcheck, Database.insertMessage, if_pos clash]
      rfl
    have answer : w.up uuid conn ⟨.sql (.execute (BatchIdempotencyService.insertMessage m)),
        .error SqlError.dupEntry⟩ w :=
      ⟨{ outcome := .ok ⟨true, none⟩ }, by rw [World.answer, Database.answer, hdup]; rfl⟩
    exact ⟨w, Leads.tail .refl answer⟩

end Inserts

/-! ## The table -/

/-- The row has the key of its content, which is among those that are hashed. -/
def Keyed (sha256 : String → String) (hashed : Set String) (x : MessageRow) : Prop :=
  x.content.text ∈ hashed ∧ x.dedupKey = sha256 x.content.text

/-- The router has published the message for a valid request. -/
def Published (sha256 : String → String) (hashed : Set String) (m : MessageToCheckIdempotency) :
    Prop :=
  ∃ (r : TextRequest) (reply : MessageResponse),
    MessageController.validateRequest r.toRequest = .ok () ∧ r.content.text ∈ hashed ∧
    reply.dedupKey = r.dedupKey sha256 ∧ m = (r.routed reply).toCheck

/-- Nothing is inserted that the router has not published. -/
def publishedOnly (sha256 : String → String) (hashed : Set String) :
    Writers → Action Reply JsError Writer → Prop
  | _, .start (.insert messages) => ∀ m ∈ messages, Published sha256 hashed m
  | _, _ => True

section Table

variable {sha256 : String → String} {hashed : Set String} {uuid : ℕ → String} {conn : ℕ}
  {w : World} {r : TextRequest} {reply : MessageResponse}

theorem survives_keyed : Survives (Keyed sha256 hashed) := by
  intro x messageId status finalDelivered attempts _ _ h
  unfold MessageRow.updated
  split
  · exact h
  · exact h

theorem keyed_newRow {m : MessageToCheckIdempotency} (published : Published sha256 hashed m) :
    Keyed sha256 hashed m.newRow := by
  obtain ⟨r, reply, -, member, key, rfl⟩ := published
  exact ⟨member, key⟩

/-- In a table of keyed rows an `INSERT` is skipped for its key only if the content is there,
exactly if the schema refuses it or no visible row is a recut. -/
theorem skipped_identifies_iff (collisionFree : Set.InjOn sha256 hashed)
    (holds : w.db.Holds (Keyed sha256 hashed)) (member : r.content.text ∈ hashed)
    (key : reply.dedupKey = r.dedupKey sha256) :
    (SkippedForKey uuid conn w (r.routed reply).toCheck →
        ∃ x ∈ w.db.visible conn, x.content = r.content) ↔
      ((r.routed reply).WellFormed →
        ∀ x ∈ w.db.visible conn, ¬ x.content.Recut r.content) := by
  have keyed {x : MessageRow} (hx : x ∈ w.db.visible conn) : Keyed sha256 hashed x :=
    holds.rows x (Database.rows_of_visible hx)
  constructor
  · intro identifies wellFormed x hx recut
    have hkey : x.dedupKey = reply.dedupKey := by
      rw [(keyed hx).2, recut.text_eq, key]
      rfl
    have clash : (w.db.visible conn).any (r.routed reply).toCheck.newRow.clashes = true :=
      List.any_eq_true.mpr ⟨x, hx, MessageRow.clashes_iff.mpr (.inr (.inr hkey.symm))⟩
    obtain ⟨x', hx', hsame⟩ :=
      identifies ⟨skipped_iff.mpr ⟨wellFormed, clash⟩, x, hx, hkey⟩
    -- the unique key leaves one row for the key
    have hkey' : x'.dedupKey = x.dedupKey := by
      rw [(keyed hx').2, hsame, (keyed hx).2, recut.text_eq]
    have : x' = x := holds.distinct x' (Database.rows_of_visible hx') x
      (Database.rows_of_visible hx) (MessageRow.clashes_iff.mpr (.inr (.inr hkey')))
    rw [← this, hsame] at recut
    exact Content.not_recut_self recut
  · rintro free ⟨skipped, x, hx, hkey⟩
    have htext : x.content.text = r.content.text := by
      apply collisionFree (keyed hx).1 member
      rw [← (keyed hx).2, hkey]
      exact key
    exact ⟨x, hx, Content.text_identifies_iff.mpr (free (skipped_iff.mp skipped).1 x hx) htext⟩

end Table

/-- With a hash that does not collide on the texts at hand, two requests have the same dedup
key exactly for the same content if no recut is involved. And in every table that the messages
of valid requests are written to, an `INSERT` is skipped on account of its key only for the
same content, exactly if the schema refuses it or no row that it can see is a recut. -/
theorem dedupKey_identifies_iff {sha256 : String → String} {hashed : Set String}
    (collisionFree : Set.InjOn sha256 hashed) :
    (∀ r r' : TextRequest, r.content.text ∈ hashed → r'.content.text ∈ hashed →
      ((r.generated sha256 = r'.generated sha256 ↔ r.content = r'.content) ↔
        ¬ r.content.Recut r'.content)) ∧
    ∀ (uuid : ℕ → String) (init : World) (s : Writers), init.db.rows = [] →
      (writers uuid).Run (publishedOnly sha256 hashed) init s →
      ∀ (r : TextRequest) (reply : MessageResponse) (conn : ℕ),
        MessageController.validateRequest r.toRequest = .ok () → r.content.text ∈ hashed →
        reply.dedupKey = r.dedupKey sha256 →
        ((SkippedForKey uuid conn s.shared (r.routed reply).toCheck →
            ∃ x ∈ s.shared.db.visible conn, x.content = r.content) ↔
          ((r.routed reply).WellFormed →
            ∀ x ∈ s.shared.db.visible conn, ¬ x.content.Recut r.content)) := by
  constructor
  · exact fun r r' h h' => generated_identifies_iff collisionFree h h'
  · intro uuid init s empty run r reply conn _ member key
    have inserts : ∀ s job, publishedOnly sha256 hashed s (.start job) →
        job.Inserts (Keyed sha256 hashed) := by
      intro _ job permitted
      cases job with
      | insert messages => exact fun m hm => keyed_newRow (permitted m hm)
      | deliver kind provider message => exact trivial
    have holds := Writers.holds run survives_keyed inserts empty
    exact skipped_identifies_iff collisionFree holds member key

section Samples

/-- `orderShipped` for one tenant, to a recipient with a colon. -/
def toUri : TextRequest :=
  { orderShipped with recipient := "tel:+15550100", tenantId := "acme" }

/-- The same text cut at another colon: a request of a tenant with a colon in its name. -/
def toScheme : TextRequest :=
  { orderShipped with recipient := "tel", tenantId := "+15550100:acme" }

/-- The SHA-256 of the text that both are hashed as. -/
def uriHash : String := "c51b2594430f13a054a0920e48a1e484f2c5a279ad108b36fa270db9f2c50d85"

/-- SHA-256 on the texts of `orderShipped` and of these two. -/
def sampleSha256 (text : String) : String :=
  if text = orderShipped.content.text then Pipeline.orderHash else uriHash

def replyFor (messageId : String) (r : TextRequest) : MessageResponse :=
  { messageId, dedupKey := r.dedupKey sampleSha256, traceId := "trace-1", status := .accepted }

/-- A process that inserts `toUri` into the empty table, after some turns. -/
def inserting (turns : ℕ) : Writers :=
  Machine.turns (fun _ a => match a with | .turn _ _ => true | _ => false)
    (fun c w => w.answer toString 0 { outcome := .ok ⟨true, none⟩ } c) 0 turns
    ((Pool.initial {}).spawn (.insert [(toUri.routed (replyFor "m-1" toUri)).toCheck])
      (Writer.insert [(toUri.routed (replyFor "m-1" toUri)).toCheck]).code)

/-- Two valid requests with different recipients and tenants get the same key, whatever the
hash is, and once one of them is stored the other one is refused. -/
theorem dedupKey_identifies_fails :
    MessageController.validateRequest toUri.toRequest = .ok () ∧
    MessageController.validateRequest toScheme.toRequest = .ok () ∧
    toUri.content ≠ toScheme.content ∧
    (∀ sha256, toUri.generated sha256 = toScheme.generated sha256) ∧
    (inserting 5).shared.db.messages.map MessageRow.content = [toUri.content] ∧
    SkippedForKey toString 1 (inserting 5).shared
      (toScheme.routed (replyFor "m-2" toScheme)).toCheck := by
  refine ⟨by decide, by decide, by decide, ?_, rfl, skipped_iff.mpr ⟨rfl, rfl⟩,
    toUri.stored (replyFor "m-1" toUri), List.mem_singleton.mpr rfl, rfl⟩
  intro sha256
  rw [TextRequest.generated, TextRequest.generated, TextRequest.generateDedupKey_eq,
    TextRequest.generateDedupKey_eq]
  rfl

theorem collisionFree_sample :
    Set.InjOn sampleSha256 {orderShipped.content.text, toUri.content.text} := by
  have apart : sampleSha256 orderShipped.content.text ≠ sampleSha256 toUri.content.text := by decide
  rintro text (rfl | rfl) text' (rfl | rfl) h
  · rfl
  · exact absurd h apart
  · exact absurd h.symm apart
  · rfl

theorem run_inserting (turns : ℕ) : (writers toString).Run
    (publishedOnly sampleSha256 {orderShipped.content.text, toUri.content.text}) {}
    (inserting turns) := by
  apply Machine.Run.turns
  · exact fun _ _ _ _ => World.lossy_of_answer
  · intro s a permitted
    cases a with
    | turn pid ev => exact trivial
    | _ => cases permitted
  · refine .next .initial (.start trivial) ?_
    intro m hm
    obtain rfl := List.mem_singleton.mp hm
    exact ⟨toUri, replyFor "m-1" toUri, by decide, .inr rfl, rfl, rfl⟩

theorem dedupKey_identifies_inserting :
    ((toUri.generated sampleSha256 = orderShipped.generated sampleSha256 ↔
        toUri.content = orderShipped.content) ↔ ¬ toUri.content.Recut orderShipped.content) ∧
    (inserting 5).shared.db.messages.map MessageRow.content = [toUri.content] ∧
    ((SkippedForKey toString 1 (inserting 5).shared
          (orderShipped.routed (replyFor "m-2" orderShipped)).toCheck →
        ∃ x ∈ (inserting 5).shared.db.visible 1, x.content = orderShipped.content) ↔
      ((orderShipped.routed (replyFor "m-2" orderShipped)).WellFormed →
        ∀ x ∈ (inserting 5).shared.db.visible 1, ¬ x.content.Recut orderShipped.content)) := by
  obtain ⟨keys, table⟩ := dedupKey_identifies_iff collisionFree_sample
  refine ⟨keys toUri orderShipped (.inr rfl) (.inl rfl), rfl, ?_⟩
  exact table toString {} (inserting 5) rfl (run_inserting 5) orderShipped
    (replyFor "m-2" orderShipped) 1 (by decide) (.inl rfl) rfl

end Samples

end ContentKey

end Notification
