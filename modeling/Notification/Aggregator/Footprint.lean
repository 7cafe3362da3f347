import Notification.Aggregator.Writers

/-!
# The calls of one delivery

Every call of a delivery names its own message: its id, its dedup key, its attempt and its
trace. With the statements of the source most of them are never reached, since the schema
refuses the first statement of every path.
-/

namespace Notification

open Interaction Program

/-! ## Footprints -/

section Footprints

variable (provider : IProvider) (m : MessageToDeliver)

/-- What a delivery of `m` calls when the repository does what its interface says. -/
inductive DeliveryCall : Call → Prop
  | lookup : DeliveryCall (.redis
      (.exists (DeliveryDeduplicationService.buildDeliveryKey m.dedupKey)))
  | claim : DeliveryCall (.redis
      (.setNX (DeliveryDeduplicationService.buildDeliveryKey m.dedupKey) (.number 1)))
  | cache : DeliveryCall (.redis
      (.setEx (DeliveryDeduplicationService.buildDeliveryKey m.dedupKey)
        DeliveryDeduplicationService.DELIVERY_CACHE_TTL (.number 1)))
  | status : DeliveryCall (.repository (.getStatus m.messageId))
  | send : DeliveryCall (.send provider.name m.recipient m.body
      (DeliveryProcessorService.sendOptions m (m.attempt + 1)) m)
  | print (response : Option String) : DeliveryCall (.stringify response)
  | succeeded (providerResponse : Option String) : DeliveryCall (.repository
      (.saveAttempt (DeliveryProcessorService.successAttempt m (m.attempt + 1) providerResponse)))
  | failed (error : JsError) : DeliveryCall (.repository
      (.saveAttempt (DeliveryProcessorService.failedAttempt m (m.attempt + 1) error)))
  | sent : DeliveryCall (.repository (.updateStatus m.messageId .sent true (m.attempt + 1)))
  | pending : m.attempt + 1 < DeliveryProcessorService.MAX_ATTEMPTS →
      DeliveryCall (.repository (.updateStatus m.messageId .pending false (m.attempt + 1)))
  | exhausted : DeliveryProcessorService.MAX_ATTEMPTS ≤ m.attempt + 1 →
      DeliveryCall (.repository (.updateStatus m.messageId .failed false (m.attempt + 1)))
  | clock : DeliveryCall .now
  | retry (score : Int) : m.attempt + 1 < DeliveryProcessorService.MAX_ATTEMPTS →
      DeliveryCall (.redis (.zAdd "retries" score
        (RetrySchedulerService.payload m.messageId m.channel (Number.add (m.attempt + 1) 1))))
  | deadLetter (reason : String) : DeliveryProcessorService.MAX_ATTEMPTS ≤ m.attempt + 1 →
      DeliveryCall (.repository (.saveDLQEntry
        { messageId := m.messageId, channel := m.channel, failureReason := reason,
          maxAttemptsReached := true }))
  | dlq (reason : String) : DeliveryProcessorService.MAX_ATTEMPTS ≤ m.attempt + 1 →
      DeliveryCall (.produce ("dlq." ++ m.channel) (some (.string m.messageId))
        (.ofFields
          [ ("messageId", some (.string m.messageId)), ("channel", some (.string m.channel)),
            ("reason", some (.string reason)) ]) [])
  | log (status text : String) (error : Json) : DeliveryCall
      (.produce "logs" ((deliveryLog m status text (m.attempt + 1) error).get? "traceId")
        (deliveryLog m status text (m.attempt + 1) error) [])
  | report (key : Option Json) (reason : String) :
      DeliveryProcessorService.MAX_ATTEMPTS ≤ m.attempt + 1 →
      DeliveryCall (.produce "errors" key (deliveryError m (m.attempt + 1) reason) [])

/-- What a delivery of `m` calls when the repository runs the statements of the source. -/
inductive FutileCall : Call → Prop
  | lookup : FutileCall (.redis
      (.exists (DeliveryDeduplicationService.buildDeliveryKey m.dedupKey)))
  | claim : FutileCall (.redis
      (.setNX (DeliveryDeduplicationService.buildDeliveryKey m.dedupKey) (.number 1)))
  | send : FutileCall (.send provider.name m.recipient m.body
      (DeliveryProcessorService.sendOptions m (m.attempt + 1)) m)
  | connection : FutileCall (.sql .getConnection)
  | refused (statement : Statement) : statement.check ≠ none →
      FutileCall (.sql (.execute statement))
  | release : FutileCall (.sql .release)

end Footprints

/-- The calls of a delivery, by the kind of its repository. -/
def RepositoryKind.Calls (kind : RepositoryKind) (provider : IProvider) (m : MessageToDeliver) :
    Call → Prop :=
  match kind with
  | interface => DeliveryCall provider m
  | statements => FutileCall provider m

/-! ## The interface -/

section Interface

variable {provider : IProvider} {m : MessageToDeliver}

theorem makes_call {S : CallEvent → Prop} {c : Call} (h : ∀ r, S ⟨c, r⟩) :
    (perform c : Prog (Reply c)).Makes S := makes_perform.mpr h

namespace DeliveryProcessorService

theorem footprint_alreadyDelivered : (alreadyDelivered interfaceRepository m).Makes
    fun ev => DeliveryCall provider m ev.call := by
  refine Makes.bind (Makes.tryCatch ?_ fun _ => trivial) fun isNew => Makes.ite trivial ?_
  · refine Makes.bind (makes_call fun _ => .lookup) fun _ => Makes.ite trivial ?_
    exact Makes.bind (makes_call fun _ => .claim) fun _ => trivial
  · exact Makes.bind (makes_call fun _ => .status) fun _ => trivial

theorem footprint_recordSuccess (result : ProviderResult) :
    (recordSuccess interfaceRepository m (m.attempt + 1) result).Makes
      fun ev => DeliveryCall provider m ev.call := by
  apply Makes.bind (makes_call fun _ => .sent)
  intro _
  apply Makes.bind (makes_call fun _ => .print result.response)
  intro providerResponse
  apply Makes.bind (makes_call fun _ => .succeeded providerResponse)
  intro _
  refine Makes.bind (Makes.tryCatch (makes_call fun _ => .cache) fun _ => trivial) fun _ => ?_
  exact makes_call fun _ => .log _ _ _

theorem footprint_handleMaxAttemptsReached (reason : String)
    (exhausted : MAX_ATTEMPTS ≤ m.attempt + 1) :
    (handleMaxAttemptsReached interfaceRepository m (m.attempt + 1) reason).Makes
      fun ev => DeliveryCall provider m ev.call := by
  apply Makes.bind (makes_call fun _ => .exhausted exhausted)
  intro _
  apply Makes.bind (makes_call fun _ => .deadLetter reason exhausted)
  intro _
  apply Makes.bind (makes_call fun _ => .dlq reason exhausted)
  intro _
  apply Makes.bind (makes_call fun _ => .log _ _ _)
  intro _
  exact Makes.bind (makes_call fun _ => .report _ reason exhausted) fun _ => trivial

theorem footprint_handleRetry (reason : String) (left : m.attempt + 1 < MAX_ATTEMPTS) :
    (handleRetry interfaceRepository m (m.attempt + 1) reason).Makes
      fun ev => DeliveryCall provider m ev.call := by
  apply Makes.bind (makes_call fun _ => .pending left)
  intro _
  apply Makes.bind
  · apply Makes.bind (makes_call fun _ => .clock)
    exact fun now => Makes.bind (makes_done _) fun _ => makes_call fun _ => .retry _ left
  · intro _
    exact Makes.bind (makes_call fun _ => .log _ _ _) fun _ => trivial

/-- A delivery keeps to the calls of its message. -/
theorem footprint_processDelivery : (processDelivery interfaceRepository provider m).Makes
    fun ev => DeliveryCall provider m ev.call := by
  apply Makes.tryCatch
  · apply Makes.bind footprint_alreadyDelivered
    intro delivered
    refine Makes.ite trivial ?_
    apply Makes.bind (makes_call fun _ => .send)
    exact fun result => Makes.bind (footprint_recordSuccess result) fun _ => trivial
  · intro error
    apply Makes.bind (makes_call fun _ => .failed error)
    intro _
    unfold MAX_ATTEMPTS
    split
    · next exhausted => exact footprint_handleMaxAttemptsReached _ exhausted
    · next left => exact footprint_handleRetry _ (Int.not_le.mp left)

end DeliveryProcessorService

end Interface

/-! ## The statements of the source -/

/-- A statement that the schema refuses is answered with an error, which is not taken for a
duplicate key. -/
def Refuses (ev : CallEvent) : Prop :=
  ∀ (statement : Statement) (r : Except JsError statement.Result),
    ev = ⟨.sql (.execute statement), r⟩ → statement.check ≠ none →
      ∃ e, r = .error e ∧ e.code ≠ some "ER_DUP_ENTRY"

section Statements

variable {provider : IProvider} {m : MessageToDeliver} {S : Call → Prop}
  {t : Trace Reply JsError} {α : Type}

/-- The calls so far are in `S`, and the program has thrown. -/
def Thrown (S : Call → Prop) : Except JsError α → Trace Reply JsError → Prop :=
  either (fun _ _ => False) fun _ t => Always (fun ev _ => S ev.call) t

/-- The calls around a refused statement are among `S`. -/
structure AdmitsRefused (S : Call → Prop) : Prop where
  connection : S (.sql .getConnection)
  refused : ∀ statement : Statement, statement.check ≠ none → S (.sql (.execute statement))
  release : S (.sql .release)

theorem admits_futileCall : AdmitsRefused (FutileCall provider m) :=
  ⟨.connection, .refused, .release⟩

/-- A refused statement ends its method; the connection is taken and given back. -/
theorem thrown_withConnection {statement : Statement} (refused : statement.check ≠ none)
    (admits : AdmitsRefused S) (f : statement.Result → Prog α)
    (before : Always (fun ev _ => S ev.call) t) :
    (withConnection (Connection.execute statement >>= f)).wp (recording Refuses)
      (Always fun ev _ => S ev.call) (Thrown S) t := by
  rw [withConnection, wp_bind, Connection.wp_getConnection]
  intro r _
  have taken : Always (fun ev _ => S ev.call) (⟨.sql .getConnection, r⟩ :: t) :=
    ⟨admits.connection, before⟩
  refine ⟨taken, ?_⟩
  cases r with
  | error e => exact taken
  | ok _ =>
      rw [either_ok, wp_andFinally, wp_bind, Connection.wp_execute]
      intro r hr
      obtain ⟨e, rfl, -⟩ := hr statement r rfl refused
      have execute := admits.refused statement refused
      refine ⟨⟨execute, taken⟩, ?_⟩
      rw [either_error, Connection.wp_release]
      intro r _
      refine ⟨⟨admits.release, execute, taken⟩, ?_⟩
      cases r <;> exact ⟨admits.release, execute, taken⟩

theorem thrown_execute {statement : Statement} (refused : statement.check ≠ none)
    (admits : AdmitsRefused S) (before : Always (fun ev _ => S ev.call) t) :
    (withConnection (Connection.execute statement)).wp (recording Refuses)
      (Always fun ev _ => S ev.call) (Thrown S) t := by
  have h := thrown_withConnection refused admits pure before
  rwa [bind_pure] at h

theorem thrown_saveAttempt (admits : AdmitsRefused S) (entity : DeliveryAttempt)
    (before : Always (fun ev _ => S ev.call) t) :
    (deliveryRepository.saveAttempt entity).wp (recording Refuses)
      (Always fun ev _ => S ev.call) (Thrown S) t := by
  have refused : (DeliveryRepository.insertAttempt entity).check ≠ none := by
    rw [DeliveryRepository.check_insertAttempt]
    simp
  exact thrown_execute refused admits before

theorem thrown_updateStatus (admits : AdmitsRefused S) (messageId : String) (status : Status)
    (finalDelivered : Bool) (attempts : Int) (before : Always (fun ev _ => S ev.call) t) :
    (deliveryRepository.updateStatus messageId status finalDelivered attempts).wp
      (recording Refuses) (Always fun ev _ => S ev.call) (Thrown S) t := by
  have refused :
      (DeliveryRepository.updateMessage messageId status finalDelivered attempts).check ≠ none := by
    rw [DeliveryRepository.check_updateMessage]
    simp
  exact thrown_execute refused admits before

theorem thrown_getStatus (admits : AdmitsRefused S) (messageId : String)
    (before : Always (fun ev _ => S ev.call) t) :
    (deliveryRepository.getStatus messageId).wp (recording Refuses)
      (Always fun ev _ => S ev.call) (Thrown S) t := by
  have refused : (DeliveryRepository.selectStatus messageId).check ≠ none := by
    rw [DeliveryRepository.check_selectStatus]
    simp
  exact thrown_withConnection refused admits _ before

namespace DeliveryProcessorService

theorem futile_alreadyDelivered (before : Always (fun ev _ => FutileCall provider m ev.call) t) :
    (alreadyDelivered deliveryRepository m).wp (recording Refuses)
      (Always fun ev _ => FutileCall provider m ev.call)
      (either (fun delivered t' => delivered = false ∧
        Always (fun ev _ => FutileCall provider m ev.call) t') fun _ t' =>
          Always (fun ev _ => FutileCall provider m ev.call) t') t := by
  have check : (DeliveryDeduplicationService.checkDeliveryDedup m.dedupKey).Makes
      fun ev => FutileCall provider m ev.call := by
    refine Makes.tryCatch ?_ fun _ => trivial
    refine Makes.bind (makes_call fun _ => .lookup) fun _ => Makes.ite trivial ?_
    exact Makes.bind (makes_call fun _ => .claim) fun _ => trivial
  rw [alreadyDelivered, wp_bind]
  apply mono_post (check.always before)
  intro o t' made
  cases o with
  | error e => exact made
  | ok isNew =>
      rw [either_ok, wp_ite]
      constructor
      · exact fun _ => ⟨rfl, made⟩
      · intro _
        rw [wp_bind]
        apply mono_post (thrown_getStatus admits_futileCall m.messageId made)
        intro o t'' thrown
        cases o with
        | error e => exact thrown
        | ok _ => exact thrown.elim

/-- With the statements of the source a delivery looks the key up, calls the provider and
throws. Nothing is written down, and no retry is scheduled. -/
theorem futile_processDelivery (before : Always (fun ev _ => FutileCall provider m ev.call) t) :
    (processDelivery deliveryRepository provider m).wp (recording Refuses)
      (Always fun ev _ => FutileCall provider m ev.call) (Thrown (FutileCall provider m)) t := by
  have delivers : (deliver deliveryRepository provider m (m.attempt + 1)).wp (recording Refuses)
      (Always fun ev _ => FutileCall provider m ev.call) (Thrown (FutileCall provider m)) t := by
    rw [deliver, wp_bind]
    apply mono_post (futile_alreadyDelivered before)
    intro o t' h
    cases o with
    | error e => exact h
    | ok delivered =>
        obtain ⟨rfl, made⟩ := h
        rw [either_ok, wp_ite]
        refine ⟨fun h => absurd h (by decide), fun _ => ?_⟩
        rw [wp_bind, IProvider.wp_send]
        intro r _
        have sent : Always (fun ev _ => FutileCall provider m ev.call) (⟨.send provider.name
            m.recipient m.body (sendOptions m (m.attempt + 1)) m, r⟩ :: t') := ⟨.send, made⟩
        refine ⟨sent, ?_⟩
        cases r with
        | error e => exact sent
        | ok result =>
            rw [either_ok, wp_bind, recordSuccess, wp_bind]
            apply mono_post (thrown_updateStatus admits_futileCall _ _ _ _ sent)
            intro o t'' thrown
            cases o with
            | error e => exact thrown
            | ok _ => exact thrown.elim
  rw [processDelivery, wp_tryCatch]
  apply mono_post delivers
  intro o t' h
  cases o with
  | ok _ => exact h.elim
  | error e =>
      rw [either_error, handleFailure, wp_bind]
      apply mono_post (thrown_saveAttempt admits_futileCall _ h)
      intro o t'' thrown
      cases o with
      | error e => exact thrown
      | ok _ => exact thrown.elim

end DeliveryProcessorService

end Statements

/-- A delivery keeps to the calls of its message, whatever the repository. -/
theorem RepositoryKind.wp_processDelivery (kind : RepositoryKind) (provider : IProvider)
    (m : MessageToDeliver) :
    (DeliveryProcessorService.processDelivery kind.repository provider m).wp (recording Refuses)
      (Always fun ev _ => kind.Calls provider m ev.call) (fun _ _ => True) [] := by
  cases kind with
  | interface =>
      apply mono_post (DeliveryProcessorService.footprint_processDelivery.always (always_nil _))
      exact fun _ _ _ => trivial
  | statements =>
      apply mono_post (DeliveryProcessorService.futile_processDelivery (always_nil _))
      exact fun _ _ _ => trivial

end Notification
