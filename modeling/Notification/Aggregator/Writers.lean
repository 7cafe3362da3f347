import Notification.Aggregator.Effects
import Notification.Aggregator.Insertion
import Notification.Aggregator.Schema

/-!
# What writes to `messages`

Batches are inserted and messages are delivered by any number of processes at once, any call
may fail, and connections get lost. A property of rows that every inserted row has and no mark
of a delivery destroys holds of all rows, and so do the unique keys.
-/

namespace Notification

open Interaction Program

/-- The repository a delivery works with: the methods do what the interface says, or they run
the statements of the source. -/
inductive RepositoryKind where
  | interface
  | statements

def RepositoryKind.repository : RepositoryKind → IDeliveryRepository
  | interface => interfaceRepository
  | statements => deliveryRepository

inductive Writer where
  | insert (messages : List MessageToCheckIdempotency)
  | deliver (kind : RepositoryKind) (provider : IProvider) (message : MessageToDeliver)

def Writer.code : Writer → Prog (List InsertResult ⊕ ProcessResult)
  | insert messages => do
    let results ← BatchIdempotencyService.insertNewMessagesInProgress messages
    return .inl results
  | deliver kind provider message => do
    let result ← DeliveryProcessorService.processDelivery kind.repository provider message
    return .inr result

/-- Writers are started at any time. A lost connection rolls its transaction back, when its
process crashes or by itself. -/
def writers (uuid : ℕ → String) :
    Machine Reply JsError (List InsertResult ⊕ ProcessResult) Writer World where
  code := Writer.code
  starts _ _ := True
  answers := World.lossy uuid
  crashes pid w w' := w' = w ∨ w' = { w with db := w.db.rollback pid }
  settles _ _ _ _ := False
  drifts w w' := w.later w' ∨ ∃ conn, w' = { w with db := w.db.rollback conn }

abbrev Writers := Pool Reply JsError (List InsertResult ⊕ ProcessResult) Writer World

/-! ## Single calls -/

/-- Nothing but marks of a delivery changes rows that have `P`, what is inserted has it, and an
`UPDATE` is refused. -/
def KeepsRows (P : MessageRow → Prop) : Call → Prop
  | .repository (.updateStatus messageId status finalDelivered attempts) =>
    ∀ r, P r → P (r.updated messageId status finalDelivered attempts)
  | .sql (.execute (.insert .messages columns values)) => P (insertedRow columns values)
  | .sql (.execute (.update assignments keyColumn key)) =>
    (Statement.update assignments keyColumn key).check ≠ none
  | _ => True

section Steps

variable {uuid : ℕ → String} {pid : ℕ} {w w' : World} {ev : CallEvent} {P : MessageRow → Prop}

/-- A call with or without an effect; a refused `UPDATE` has none. -/
theorem rowStep_of_up_of_keeps (answer : w.up uuid pid ev w') (keeps : KeepsRows P ev.call) :
    w'.db = w.db ∨ RowStep pid ev w.db w'.db := by
  by_cases hupdate : ∃ assignments keyColumn key,
      ev.call = .sql (.execute (.update assignments keyColumn key))
  · obtain ⟨assignments, keyColumn, key, hcall⟩ := hupdate
    obtain ⟨call, answered⟩ := ev
    obtain rfl : call = _ := hcall
    obtain ⟨error, hcheck⟩ := Option.ne_none_iff_exists'.mp keeps
    obtain ⟨choice, answer⟩ := answer
    simp only [World.answer, Database.answer, Database.execute_of_check _ _ hcheck] at answer
    cases answer
    exact .inl rfl
  · exact .inr (rowStep_of_up answer fun assignments keyColumn key hcall =>
      hupdate ⟨assignments, keyColumn, key, hcall⟩)

theorem rowStep_of_lossy (answer : w.lossy uuid pid ev w') (keeps : KeepsRows P ev.call) :
    w'.db = w.db ∨ ∃ r, RowStep pid ⟨ev.call, r⟩ w.db w'.db := by
  obtain (answer | ⟨-, rfl, -⟩) | ⟨-, -, r, answer⟩ := answer
  · exact (rowStep_of_up_of_keeps answer keeps).imp_right fun step => ⟨_, step⟩
  · exact .inl rfl
  · exact (rowStep_of_up_of_keeps answer keeps).imp_right fun step => ⟨r, step⟩

/-- All rows have `P`, and the unique keys hold. -/
structure Database.Holds (P : MessageRow → Prop) (db : Database) : Prop where
  rows : ∀ r ∈ db.rows, P r
  distinct : db.Distinct

theorem holds_of_lossy (answer : w.lossy uuid pid ev w') (keeps : KeepsRows P ev.call)
    (h : w.db.Holds P) : w'.db.Holds P := by
  obtain hsame | ⟨answered, step⟩ := rowStep_of_lossy answer keeps
  · rwa [hsame]
  · refine ⟨?_, step.distinct h.distinct⟩
    obtain ⟨call, _⟩ := ev
    obtain hkept | ⟨messageId, status, finalDelivered, attempts, heq, hrows⟩ |
      ⟨columns, values, heq, hrows, -⟩ := step.rows_cases
    · exact fun r hr => h.rows r (hkept r hr)
    · cases heq
      intro r hr
      obtain ⟨r₀, hr₀, rfl⟩ := hrows r hr
      exact keeps r₀ (h.rows r₀ hr₀)
    · cases heq
      intro r hr
      obtain hr | rfl := hrows r hr
      · exact h.rows r hr
      · exact keeps

theorem Database.Holds.mono {db : Database} {P' : MessageRow → Prop} (h : db.Holds P)
    (weaker : ∀ r, P r → P' r) : db.Holds P' :=
  ⟨fun r hr => weaker r (h.rows r hr), h.distinct⟩

theorem rows_of_rollback {db : Database} {conn : ℕ} {r : MessageRow}
    (h : r ∈ (db.rollback conn).rows) : r ∈ db.rows := by
  apply Database.mem_rows.mpr
  apply (Database.mem_rows.mp h).imp_right
  rintro ⟨conn', hr⟩
  exact ⟨conn', List.mem_of_mem_filter hr⟩

theorem Database.Holds.rollback {db : Database} (h : db.Holds P) (conn : ℕ) :
    (db.rollback conn).Holds P :=
  ⟨fun r hr => h.rows r (rows_of_rollback hr),
    fun r hr r' hr' => h.distinct r (rows_of_rollback hr) r' (rows_of_rollback hr')⟩

end Steps

/-! ## What the writers call -/

/-- The marks of a delivery do not destroy `P`. -/
def Survives (P : MessageRow → Prop) : Prop :=
  ∀ r messageId status finalDelivered attempts,
    (finalDelivered = true ↔ status = Status.sent) → status ≠ .retryScheduled → P r →
      P (r.updated messageId status finalDelivered attempts)

/-- The rows of a batch have `P`. -/
def Writer.Inserts (P : MessageRow → Prop) : Writer → Prop
  | insert messages => ∀ m ∈ messages, P m.newRow
  | deliver .. => True

section Calls

variable {P : MessageRow → Prop}

theorem keepsRows_of_aside {c : Call} (h : Aside c = true) : KeepsRows P c := by
  cases c with
  | sql c => cases h
  | repository c => cases h
  | send provider recipient body options message => cases h
  | _ => exact trivial

theorem within_interfaceRepository (survives : Survives P) :
    interfaceRepository.Within fun ev => KeepsRows P ev.call where
  aside _ _ h := keepsRows_of_aside h
  saveAttempt _ := makes_perform.mpr fun _ => trivial
  saveDLQEntry _ := makes_perform.mpr fun _ => trivial
  getStatus _ := makes_perform.mpr fun _ => trivial
  markSent _ _ := makes_perform.mpr fun _ _ => survives _ _ _ _ _ (by decide) (by decide)
  markFailed _ _ := makes_perform.mpr fun _ _ => survives _ _ _ _ _ (by decide) (by decide)
  markPending _ _ := makes_perform.mpr fun _ _ => survives _ _ _ _ _ (by decide) (by decide)

theorem keepsRows_withConnection {α : Type} {body : Prog α}
    (h : body.Makes fun ev => KeepsRows P ev.call) :
    (withConnection body).Makes fun ev => KeepsRows P ev.call :=
  Makes.bind (makes_perform.mpr fun _ => trivial) fun _ =>
    h.andFinally (makes_perform.mpr fun _ => trivial)

/-- The source's `UPDATE` names a column that is not there, whatever it is to set. -/
theorem keepsRows_updateMessage (messageId : String) (status : Status) (finalDelivered : Bool)
    (attempts : Int) : (deliveryRepository.updateStatus messageId status finalDelivered
      attempts).Makes fun ev => KeepsRows P ev.call := by
  apply keepsRows_withConnection
  apply makes_perform.mpr
  intro _
  have hcheck := DeliveryRepository.check_updateMessage messageId status finalDelivered attempts
  exact hcheck.trans_ne (Option.some_ne_none _)

theorem within_deliveryRepository : deliveryRepository.Within fun ev => KeepsRows P ev.call where
  aside _ _ h := keepsRows_of_aside h
  saveAttempt _ := keepsRows_withConnection (makes_perform.mpr fun _ => trivial)
  saveDLQEntry _ := keepsRows_withConnection (makes_perform.mpr fun _ => trivial)
  getStatus _ := keepsRows_withConnection (Makes.bind (makes_perform.mpr fun _ => trivial)
    fun _ => makes_pure _)
  markSent messageId attempts := keepsRows_updateMessage messageId .sent true attempts
  markFailed messageId attempts := keepsRows_updateMessage messageId .failed false attempts
  markPending messageId attempts := keepsRows_updateMessage messageId .pending false attempts

theorem RepositoryKind.within (kind : RepositoryKind) (survives : Survives P) :
    kind.repository.Within fun ev => KeepsRows P ev.call := by
  cases kind with
  | interface => exact within_interfaceRepository survives
  | statements => exact within_deliveryRepository

theorem keepsRows_insertMessage {m : MessageToCheckIdempotency} (h : P m.newRow) :
    KeepsRows P (.sql (.execute (BatchIdempotencyService.insertMessage m))) := by
  obtain ⟨columns, values, hinsert, hrow⟩ := BatchIdempotencyService.insertMessage_eq m
  rw [hinsert]
  change P (insertedRow columns values)
  rwa [hrow]

theorem keepsRows_code {job : Writer} (inserts : job.Inserts P) (survives : Survives P) :
    job.code.Makes fun ev => KeepsRows P ev.call := by
  cases job with
  | insert messages =>
      apply Makes.bind ?_ fun _ => makes_pure _
      apply BatchIdempotencyService.makes_insertNewMessagesInProgress
      · intro c r h
        cases c with
        | execute statement => exact absurd rfl (h statement)
        | _ => exact trivial
      · exact fun m member _ => keepsRows_insertMessage (inserts m member)
  | deliver kind provider message =>
      apply Makes.bind ?_ fun _ => makes_pure _
      exact DeliveryProcessorService.makes_processDelivery (kind.within survives) message
        fun _ => trivial

end Calls

/-! ## Runs -/

namespace Writers

variable {uuid : ℕ → String} {init : World} {s s' : Writers} {P : MessageRow → Prop}
  {allowed : Writers → Action Reply JsError Writer → Prop}

/-- All rows have `P`, and every writer only makes calls that keep it so. -/
structure Tidy (P : MessageRow → Prop) (s : Writers) : Prop extends s.shared.db.Holds P where
  rest : ∀ (pid : ℕ) (proc : Proc Reply JsError (List InsertResult ⊕ ProcessResult) Writer),
    s.procs[pid]? = some proc → proc.rest.Makes fun ev => KeepsRows P ev.call

theorem Tidy.step {a : Action Reply JsError Writer} (tidy : Tidy P s) (survives : Survives P)
    (inserts : ∀ job, a = .start job → job.Inserts P) (step : (writers uuid).Step s a s') :
    Tidy P s' := by
  have holds : s'.shared.db.Holds P := by
    cases step with
    | start _ => exact tidy.toHolds
    | turn hproc _ hrest answer =>
        have makes := tidy.rest _ _ hproc
        rw [hrest] at makes
        exact holds_of_lossy answer (makes _).1 tidy.toHolds
    | crash _ hcrash =>
        obtain rfl | rfl := hcrash
        · exact tidy.toHolds
        · exact tidy.toHolds.rollback _
    | settle _ _ _ hsettle => exact hsettle.elim
    | drift hdrift =>
        obtain ⟨t, -, rfl⟩ | ⟨conn, rfl⟩ := hdrift
        · exact tidy.toHolds
        · exact tidy.toHolds.rollback conn
  constructor
  · exact holds
  · intro pid proc' hproc'
    obtain hold | ⟨job, ha, -, -, -, rfl⟩ | ⟨proc, c, next, r, -, hproc, -, hrest, -, rfl⟩ |
      ⟨proc, -, hproc, -, rfl⟩ := step.proc_cases hproc'
    · exact tidy.rest pid proc' hold
    · exact keepsRows_code (inserts job ha) survives
    · have makes := tidy.rest pid proc hproc
      rw [hrest] at makes
      exact (makes r).2
    · exact tidy.rest pid proc hproc

/-- From empty tables, a property that survives holds of every row if it holds of those that
are inserted. -/
theorem holds (run : (writers uuid).Run allowed init s) (survives : Survives P)
    (inserts : ∀ s job, allowed s (.start job) → job.Inserts P) (empty : init.db.rows = []) :
    s.shared.db.Holds P := by
  have none {r : MessageRow} (hr : r ∈ init.db.rows) : False :=
    List.not_mem_nil (empty ▸ hr)
  refine Tidy.toHolds (s := s) (run.invariant ?_ ?_)
  · constructor
    · exact ⟨fun r hr => (none hr).elim, fun r hr => (none hr).elim⟩
    · intro pid proc hproc
      exact absurd hproc (by simp [Pool.initial])
  · rintro s a s' - tidy step permitted
    apply tidy.step survives ?_ step
    rintro job rfl
    exact inserts s job permitted

end Writers

end Notification
