import Notification.Infra.Connections
import Notification.Interaction.Reaches
import Notification.System.Services

/-!
# Running a job alone

Whatever else is going on, the open transactions can be rolled back, and then a job can be
started and take all of its turns before anything else moves. What comes of it is what the
sequential run of its program says.
-/

namespace Notification

open Interaction Program

theorem World.renumber_of_quiescent {w : World} (quiescent : w.db.Quiescent) (f : ℕ → ℕ) :
    w.renumber f = w := by
  obtain ⟨⟨messages, pending, inTransaction, attempts, dlq⟩, redis, log, inbox, uuids, resolved,
    committed⟩ := w
  obtain rfl : pending = [] := quiescent.pending
  obtain rfl : inTransaction = [] := quiescent.inTransaction
  rfl

/-- No transaction is open any more. -/
def Database.settled (db : Database) : Database := { db with pending := [], inTransaction := [] }

theorem Database.foldl_rollback (conns : List ℕ) (db : Database) :
    conns.foldl Database.rollback db =
      { db with
        pending := db.pending.filter fun p => !conns.contains p.1
        inTransaction := db.inTransaction.filter fun c => !conns.contains c } := by
  induction conns generalizing db with
  | nil => simp
  | cons conn rest ih =>
      rw [List.foldl_cons, ih]
      simp only [rollback, List.filter_filter, List.contains_cons, Bool.not_or, bne, Bool.and_comm]

/-- Rolling back every connection settles the database. -/
theorem Database.settled_eq (db : Database) :
    (db.pending.map Prod.fst ++ db.inTransaction).foldl Database.rollback db = db.settled := by
  have gone {c : ℕ} (h : c ∈ db.pending.map Prod.fst ++ db.inTransaction) :
      ¬ (!(db.pending.map Prod.fst ++ db.inTransaction).contains c) = true := by
    rw [List.contains_iff_mem.mpr h, Bool.not_true]
    exact Bool.false_ne_true
  have hpending : (db.pending.filter fun p =>
      !(db.pending.map Prod.fst ++ db.inTransaction).contains p.1) = [] :=
    List.filter_eq_nil_iff.mpr fun p hp =>
      gone (List.mem_append_left _ (List.mem_map_of_mem hp))
  have hopen : (db.inTransaction.filter fun c =>
      !(db.pending.map Prod.fst ++ db.inTransaction).contains c) = [] :=
    List.filter_eq_nil_iff.mpr fun c hc => gone (List.mem_append_right _ hc)
  rw [foldl_rollback, hpending, hopen, settled]

namespace Services

variable {kind : RepositoryKind} {sha256 : String → String} {uuid : ℕ → String} {init : World}
  {s : Services}

/-- A process may get the answers of a sequential run, under its own number. -/
theorem answers_of_handled (kind : RepositoryKind) (sha256 : String → String)
    (choose : World → Choice) (pid : ℕ) {w w' : World} {ev : CallEvent}
    (answer : handled (World.handler uuid choose) w ev w') :
    (services kind sha256 uuid).answers pid (w.renumber (Equiv.swap 0 pid)) ev
      (w'.renumber (Equiv.swap 0 pid)) := by
  obtain ⟨c, r⟩ := ev
  have hnumber : (w.renumber (Equiv.swap 0 pid)).answer uuid pid (choose w) c =
      (w.answer uuid 0 (choose w) c).map (Prod.map id (World.renumber (Equiv.swap 0 pid))) := by
    have hanswer := World.answer_renumber (Equiv.swap 0 pid).injective uuid 0 (choose w) w c
    rwa [Equiv.swap_apply_left] at hanswer
  cases hanswer : w.answer uuid 0 (choose w) c with
  | some out =>
      obtain rfl : out = (r, w') := by
        have hhandled : World.handler uuid choose c w = (r, w') := answer
        rwa [World.handler, hanswer] at hhandled
      rw [hanswer] at hnumber
      exact ⟨World.lossy_of_answer hnumber, refuses_of_answer hnumber⟩
  | none =>
      -- what would have to wait throws
      obtain ⟨rfl, rfl⟩ : r = .error SqlError.lockWaitTimeout ∧ w' = w := by
        have hhandled : World.handler uuid choose c w = (r, w') := answer
        rw [World.handler, hanswer] at hhandled
        cases hhandled
        exact ⟨rfl, rfl⟩
      refine ⟨.inl (.inr ⟨(World.external_of_waits hanswer).1, rfl, _, rfl⟩), ?_⟩
      intro statement r' hev refused
      cases hev
      obtain ⟨error, hcheck⟩ := Option.ne_none_iff_exists'.mp refused
      simp [World.answer, Database.answer, Database.execute_of_check _ _ hcheck] at hanswer

/-- With no transaction open, a job can be run by itself. -/
theorem reaches_of_run {job : ServiceJob} (starts : (services kind sha256 uuid).starts s.shared job)
    (choose : World → Choice) {o : Except JsError (Option HttpReply)} {w' : World}
    (hrun : (job.code kind sha256).run (World.handler uuid choose) s.shared = (o, w'))
    (quiescent : s.shared.db.Quiescent) (quiescent' : w'.db.Quiescent) :
    ∃ s', (services kind sha256 uuid).Reaches (fun _ _ => True) s s' ∧ s'.shared = w' ∧
      Machine.Running s' s.procs.length job (.done o) ∧
      s'.procs.length = s.procs.length + 1 ∧
      ∀ pid < s.procs.length, s'.procs[pid]? = s.procs[pid]? := by
  apply Machine.Reaches.job starts trivial fun _ _ _ => trivial
  have leads : Leads (handled (World.handler uuid choose)) (job.code kind sha256) s.shared
      (.done ((job.code kind sha256).run (World.handler uuid choose) s.shared).1)
      ((job.code kind sha256).run (World.handler uuid choose) s.shared).2 :=
    leads_run (fun _ _ => rfl) _ _
  rw [hrun] at leads
  have numbered := leads.map (f := World.renumber (Equiv.swap 0 s.procs.length))
    fun _ _ _ answer => answers_of_handled kind sha256 choose s.procs.length answer
  rwa [World.renumber_of_quiescent quiescent, World.renumber_of_quiescent quiescent'] at numbered

/-- The open transactions can be rolled back. -/
theorem reaches_settled (s : Services) :
    (services kind sha256 uuid).Reaches (fun _ _ => True) s
      { s with shared := { s.shared with db := s.shared.db.settled } } := by
  have rolled (conns : List ℕ) : ∀ db, (services kind sha256 uuid).Reaches (fun _ _ => True)
      { s with shared := { s.shared with db := db } }
      { s with shared := { s.shared with db := conns.foldl Database.rollback db } } := by
    induction conns with
    | nil => exact fun db => .refl
    | cons conn rest ih =>
        intro db
        exact .trans (.next .refl (.drift (.inl ⟨conn, rfl⟩)) trivial) (ih (db.rollback conn))
  rw [← Database.settled_eq]
  exact rolled _ s.shared.db

end Services

end Notification
