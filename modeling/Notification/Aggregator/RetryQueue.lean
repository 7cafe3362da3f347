import Notification.Aggregator.RetryLoop

/-!
# The retry queue, shared by any number of processes

Any number of `scheduleRetry` calls and of polls of the retry loop take turns on one
sorted set, each with its own clock, and any external call may throw. A ledger of what
has entered the set, left it and been published is read off the history of a run.

A poll reads the due range, deletes the due range and publishes what it has read. In a
run in which each deletion removes just what its poll has read and no publication
throws, every member that has left the set is published or in the hand of a poll that is
still running, and nothing is published more often than it has been added. The proof
accounts for each removed member: it moves from the set into the hand of the poll, and
from there to Kafka.
-/

namespace Notification

open Interaction

/-! ## The jobs -/

/-- A call of `scheduleRetry`, or one callback of the retry loop. -/
inductive RetryJob where
  | schedule (messageId channel : String) (currentAttempt delayMs : Int)
  | poll

def RetryJob.code : RetryJob → Prog Unit
  | .schedule messageId channel currentAttempt delayMs =>
    RetrySchedulerService.scheduleRetry messageId channel currentAttempt delayMs
  | .poll => Worker.pollRetries

abbrev RetryProc := Proc Reply JsError Unit RetryJob

abbrev RetryPool := Pool Reply JsError Unit RetryJob World

/-- Jobs start at any time and in any number, and none of them crashes. -/
def retryQueue (uuid : ℕ → String) : Machine Reply JsError Unit RetryJob World where
  code := RetryJob.code
  starts _ _ := True
  answers := World.faulty uuid
  crashes _ _ _ := False
  settles _ _ _ _ := False
  drifts := World.later

/-! ## The ledger -/

/-- What the history says of the sorted set: its members now, each member once for
every time it was put in and for every time it was taken out, and the records that have
been produced. -/
structure Ledger where
  queue : List (String × Int) := []
  added : List String := []
  removed : List String := []
  published : List Call := []

namespace Ledger

/-- A member that is in the set already is not put in again. -/
def zAdd (l : Ledger) (score : Int) (member : String) : Ledger :=
  { l with
    queue := Redis.insertSorted (member, score) (l.queue.filter fun m => m.1 != member)
    added := if member ∈ l.queue.map Prod.fst then l.added else member :: l.added }

def zRemRangeByScore (l : Ledger) (min max : Int) : Ledger :=
  { l with
    queue := l.queue.filter fun m => !Redis.inRange min max m
    removed := (l.queue.filter (Redis.inRange min max)).map Prod.fst ++ l.removed }

/-- A call that has thrown has changed nothing. -/
def record (l : Ledger) : CallEvent → Ledger
  | ⟨.redis (.zAdd key score member), .ok _⟩ =>
    if key = "retries" then l.zAdd score member else l
  | ⟨.redis (.zRemRangeByScore key min max), .ok _⟩ =>
    if key = "retries" then l.zRemRangeByScore min max else l
  | ⟨.produce topic key value headers, .ok _⟩ =>
    { l with published := .produce topic key value headers :: l.published }
  | _ => l

end Ledger

/-- The ledger of a history, which has the latest call first. -/
def ledger : List (ℕ × CallEvent) → Ledger
  | [] => {}
  | (_, ev) :: history => (ledger history).record ev

/-! ## What a poll has in hand -/

/-- The call that publishes a retry. -/
abbrev publishing (retry : PendingRetry) : Call :=
  .produce (retryRecord retry 0).topic (retryRecord retry 0).key (retryRecord retry 0).value
    (retryRecord retry 0).headers

/-- The call that publishes a member of the set. -/
def publication (member : String) : Call := publishing (RetrySchedulerService.parseItem member)

/-- The members a poll has read last. -/
def readItems : Trace Reply JsError → List String
  | [] => []
  | ⟨.redis (.zRangeByScore _ _ _), .ok items⟩ :: _ => items
  | _ :: t => readItems t

/-- The publications a poll still has to make: all it has read once the range is
deleted, and one less after each that has been made. -/
def inHand : Trace Reply JsError → List Call
  | [] => []
  | ⟨.redis (.zRemRangeByScore _ _ _), .ok _⟩ :: t => (readItems t).map publication
  | ⟨.produce _ _ _ _, .ok _⟩ :: t => (inHand t).tail
  | _ :: t => inHand t

/-- The publications that processes which have not ended still have to make. -/
def RetryPool.awaited (s : RetryPool) : List Call :=
  s.gather fun P => match P.rest with
    | .done _ => []
    | .step _ _ => inHand P.trace

/-- No member is published more often than it has been added. -/
def NothingTwice (s : RetryPool) : Prop :=
  (ledger s.history).published.Subperm ((ledger s.history).added.map publication)

/-- Every member that has left the set is published, or a process that has not ended is
about to publish it. -/
def NothingLost (s : RetryPool) : Prop :=
  ((ledger s.history).removed.map publication).Subperm ((ledger s.history).published ++ s.awaited)

structure QueueSafe (s : RetryPool) : Prop where
  notTwice : NothingTwice s
  notLost : NothingLost s

/-- A deletion removes the members that its poll has read, and no publication throws. -/
def undisturbed (s : RetryPool) : Action Reply JsError RetryJob → Bool
  | .turn pid ⟨.redis (.zRemRangeByScore _ _ now), .ok _⟩ =>
    s.procs[pid]?.all fun P =>
      (RetrySchedulerService.due s.shared now).isPerm (readItems P.trace)
  | .turn _ ⟨.produce _ _ _ _, .error _⟩ => false
  | _ => true

/-! ## The calls of one job -/

/-- A call is made in its turn: a deletion with nothing in hand, a publication for what
is in hand first. -/
def InTurn (ev : CallEvent) (t : Trace Reply JsError) : Prop :=
  match ev.call with
  | .now => True
  | .redis (.zAdd key _ _) => key = "retries"
  | .redis (.zRangeByScore _ _ _) => True
  | .redis (.zRemRangeByScore key min _) => key = "retries" ∧ min = 0 ∧ inHand t = []
  | .produce _ _ _ _ => (inHand t).head? = some ev.call
  | _ => False

/-- A publication that has not thrown. -/
def Lands : CallEvent → Prop
  | ⟨.produce _ _ _ _, .error _⟩ => False
  | _ => True

section Calls

open Interaction.Program

variable {t : Trace Reply JsError}

theorem wp_scheduleRetry {messageId channel : String} {currentAttempt delayMs : Int}
    (always : Always InTurn t) (empty : inHand t = []) :
    (RetrySchedulerService.scheduleRetry messageId channel currentAttempt delayMs).wp
      (recording Lands) (Always InTurn) (fun _ t' => inHand t' = []) t := by
  rw [RetrySchedulerService.scheduleRetry, wp_bind, wp_dateNow]
  rintro (e | now) -
  · exact ⟨⟨trivial, always⟩, empty⟩
  · refine ⟨⟨trivial, always⟩, ?_⟩
    rw [either_ok, wp_bind, wp_done]
    cases toISOString (Number.add now delayMs) with
    | error e => exact empty
    | ok _ =>
        rw [either_ok, RedisClient.wp_zAdd]
        exact fun r _ => ⟨⟨rfl, trivial, always⟩, empty⟩

/-- What a poll hands back is what it has in hand. -/
theorem wp_getPendingRetries (always : Always InTurn t) (empty : inHand t = []) :
    RetrySchedulerService.getPendingRetries.wp (recording Lands) (Always InTurn)
      (either (fun retries t' => Always InTurn t' ∧ inHand t' = retries.map publishing)
        fun _ _ => False) t := by
  rw [RetrySchedulerService.getPendingRetries, wp_tryCatch, wp_bind, wp_dateNow]
  rintro (e | now) -
  · exact ⟨⟨trivial, always⟩, ⟨trivial, always⟩, empty⟩
  · refine ⟨⟨trivial, always⟩, ?_⟩
    rw [either_ok, wp_bind, RedisClient.wp_zRangeByScore]
    rintro (e | items) -
    · exact ⟨⟨trivial, trivial, always⟩, ⟨trivial, trivial, always⟩, empty⟩
    · refine ⟨⟨trivial, trivial, always⟩, ?_⟩
      rw [either_ok, wp_ite]
      constructor
      · intro _
        rw [wp_bind, RedisClient.wp_zRemRangeByScore]
        have removes (r : Except JsError ℕ) :
            Always InTurn (⟨.redis (.zRemRangeByScore "retries" 0 now), r⟩ ::
              ⟨.redis (.zRangeByScore "retries" 0 now), .ok items⟩ :: ⟨.now, .ok now⟩ :: t) :=
          ⟨⟨rfl, rfl, empty⟩, trivial, trivial, always⟩
        rintro (e | count) -
        · exact ⟨removes _, removes _, empty⟩
        · refine ⟨removes _, removes _, ?_⟩
          simp only [inHand, readItems, List.map_map]
          rfl
      · intro none
        have hnil : items = [] := List.eq_nil_of_length_eq_zero (by omega)
        subst hnil
        exact ⟨⟨trivial, trivial, always⟩, empty⟩

theorem wp_publishRetryMessage {retry : PendingRetry}
    {Q : Except JsError Unit → Trace Reply JsError → Prop} :
    (EventPublisherService.publishRetryMessage (Worker.retryMessage retry)).wp
        (recording Lands) (Always InTurn) Q t ↔
      ∀ r, Lands ⟨publishing retry, r⟩ →
        Always InTurn (⟨publishing retry, r⟩ :: t) ∧ Q r (⟨publishing retry, r⟩ :: t) :=
  wp_step_recording

/-- A loop that publishes what is in hand ends with nothing in hand. -/
theorem wp_publishRetries {retries : List PendingRetry} (always : Always InTurn t)
    (hand : inHand t = retries.map publishing) :
    (forEach retries fun retry =>
        EventPublisherService.publishRetryMessage (Worker.retryMessage retry)).wp
      (recording Lands) (Always InTurn)
        (either (fun _ t' => inHand t' = []) fun _ _ => False) t := by
  refine wp_forEach (fun rest _ t' => Always InTurn t' ∧ inHand t' = rest.map publishing)
    (fun retry rest _ t' h => ?_) (fun _ t' h => h.2) ⟨always, hand⟩
  rw [wp_publishRetryMessage]
  have inTurn : ∀ r, Always InTurn (⟨publishing retry, r⟩ :: t') := fun r =>
    ⟨(congrArg List.head? h.2).trans rfl, h.1⟩
  rintro (e | _) lands
  · exact lands.elim
  · exact ⟨inTurn _, inTurn _, congrArg List.tail h.2⟩

theorem wp_pollRetries (always : Always InTurn t) (empty : inHand t = []) :
    Worker.pollRetries.wp (recording Lands) (Always InTurn) (fun _ t' => inHand t' = []) t := by
  rw [Worker.pollRetries, wp_tryCatch, wp_bind]
  apply mono_post (wp_getPendingRetries always empty)
  intro o t' h
  cases o with
  | error e => exact h.elim
  | ok retries =>
      rw [either_ok, wp_bind]
      apply mono_post (wp_publishRetries h.1 h.2)
      intro o' t'' h'
      cases o' with
      | error e => exact h'.elim
      | ok _ => exact h'

theorem wp_code (job : RetryJob) :
    job.code.wp (recording Lands) (Always InTurn) (fun _ t' => inHand t' = []) [] := by
  cases job with
  | schedule messageId channel currentAttempt delayMs => exact wp_scheduleRetry trivial rfl
  | poll => exact wp_pollRetries trivial rfl

end Calls

/-! ## What has been put into the set and taken out -/

/-- Whatever has been put in is in the set or has been taken out. -/
structure Ledger.Balanced (l : Ledger) : Prop where
  nodup : (l.queue.map Prod.fst).Nodup
  members : l.added.Perm (l.removed ++ l.queue.map Prod.fst)

namespace Ledger.Balanced

variable {l : Ledger}

theorem zAdd (h : l.Balanced) (score : Int) (member : String) : (l.zAdd score member).Balanced := by
  have others : (l.queue.filter fun m => m.1 != member).map Prod.fst =
      (l.queue.map Prod.fst).filter (· != member) := by
    rw [List.filter_map]
    rfl
  have members : ((l.zAdd score member).queue.map Prod.fst).Perm
      (member :: (l.queue.map Prod.fst).filter (· != member)) := by
    rw [← others]
    exact (Redis.insertSorted_perm _ _).map Prod.fst
  refine ⟨members.nodup_iff.mpr (List.nodup_cons.mpr ⟨by simp, h.nodup.filter _⟩), ?_⟩
  refine List.Perm.trans ?_ (members.symm.append_left l.removed)
  by_cases present : member ∈ l.queue.map Prod.fst
  · -- only the score of the member changes
    have same : (member :: (l.queue.map Prod.fst).filter (· != member)).Perm
        (l.queue.map Prod.fst) := by
      rw [← h.nodup.erase_eq_filter]
      exact (List.perm_cons_erase present).symm
    simp only [Ledger.zAdd, if_pos present]
    exact h.members.trans (same.symm.append_left _)
  · have all : (l.queue.map Prod.fst).filter (· != member) = l.queue.map Prod.fst :=
      List.filter_eq_self.mpr fun m hm => bne_iff_ne.mpr fun heq => present (heq ▸ hm)
    simp only [Ledger.zAdd, if_neg present, all]
    exact (h.members.cons member).trans List.perm_middle.symm

theorem zRemRangeByScore (h : l.Balanced) (min max : Int) :
    (l.zRemRangeByScore min max).Balanced := by
  refine ⟨h.nodup.sublist (List.filter_sublist.map Prod.fst), ?_⟩
  have parts : (l.queue.map Prod.fst).Perm ((l.queue.filter (Redis.inRange min max)).map Prod.fst ++
      (l.queue.filter fun m => !Redis.inRange min max m).map Prod.fst) := by
    rw [← List.map_append]
    exact (List.filter_append_perm _ _).symm.map Prod.fst
  calc List.Perm l.added (l.removed ++ l.queue.map Prod.fst) := h.members
    List.Perm _ (l.removed ++ ((l.queue.filter (Redis.inRange min max)).map Prod.fst ++
      (l.queue.filter fun m => !Redis.inRange min max m).map Prod.fst)) := parts.append_left _
    List.Perm _ (((l.queue.filter (Redis.inRange min max)).map Prod.fst ++ l.removed) ++
      (l.queue.filter fun m => !Redis.inRange min max m).map Prod.fst) := by
        rw [← List.append_assoc]
        exact List.perm_append_comm.append_right _

theorem record (h : l.Balanced) (ev : CallEvent) : (l.record ev).Balanced := by
  unfold Ledger.record
  split
  · split
    · exact h.zAdd _ _
    · exact h
  · split
    · exact h.zRemRangeByScore _ _
    · exact h
  · exact ⟨h.nodup, h.members⟩
  · exact h

end Ledger.Balanced

theorem balanced_ledger (history : List (ℕ × CallEvent)) : (ledger history).Balanced := by
  induction history with
  | nil => exact ⟨.nil, .nil⟩
  | cons x rest ih => exact ih.record x.2

/-! ## What one call moves -/

section Turn

variable {uuid : ℕ → String} {pid : ℕ} {w w' : World} {l : Ledger} {ev : CallEvent}
  {t : Trace Reply JsError}

/-- The ledger keeps track of the sorted set. -/
theorem queue_record (inTurn : InTurn ev t) (answer : w.faulty uuid pid ev w')
    (queue : l.queue = w.redis.zsets "retries") :
    (l.record ev).queue = w'.redis.zsets "retries" := by
  obtain ⟨call, r⟩ := ev
  cases call with
  | now =>
      obtain ⟨choice, h⟩ | ⟨h, -⟩ := answer
      · cases h
        exact queue
      · cases h
  | produce topic key value headers =>
      obtain ⟨rfl, partition, rfl⟩ | ⟨rfl, e, rfl⟩ := World.faulty_produce answer <;> exact queue
  | redis c =>
      obtain ⟨rfl, rfl⟩ | ⟨rfl, e, rfl⟩ := World.faulty_redis answer
      · cases c with
        | zAdd key score member =>
            have hkey : key = "retries" := inTurn
            subst hkey
            simp [Ledger.record, Ledger.zAdd, Redis.answer, Redis.zAdd, queue]
        | zRangeByScore key min max => exact queue
        | zRemRangeByScore key min max =>
            obtain ⟨rfl, -, -⟩ : key = "retries" ∧ _ := inTurn
            simp [Ledger.record, Ledger.zRemRangeByScore, Redis.answer, Redis.zRemRangeByScore,
              queue]
        | _ => exact inTurn.elim
      · cases c <;> exact queue
  | _ => exact inTurn.elim

/-- The members that a call takes out of the set go into the hand of the poll, and what
is published comes out of it. -/
theorem hand_record (inTurn : InTurn ev t) (lands : Lands ev)
    (taken : ∀ key min max n, ev = ⟨.redis (.zRemRangeByScore key min max), .ok n⟩ →
      ((l.queue.filter (Redis.inRange min max)).map Prod.fst).Perm (readItems t)) :
    ∃ moved, ((l.record ev).removed.map publication).Perm
        (moved ++ l.removed.map publication) ∧
      ((l.record ev).published ++ inHand (ev :: t)).Perm (moved ++ (l.published ++ inHand t)) := by
  have still (same : l.record ev = l) (hand : inHand (ev :: t) = inHand t) :
      ∃ moved, ((l.record ev).removed.map publication).Perm
          (moved ++ l.removed.map publication) ∧
        ((l.record ev).published ++ inHand (ev :: t)).Perm
          (moved ++ (l.published ++ inHand t)) :=
    ⟨[], by rw [same]; exact .refl _, by rw [same, hand]; exact .refl _⟩
  obtain ⟨call, r⟩ := ev
  cases call with
  | now => exact still (by cases r <;> rfl) (by cases r <;> rfl)
  | produce topic key value headers =>
      cases r with
      | error e => exact lands.elim
      | ok u =>
          obtain ⟨rest, hhand⟩ := List.head?_eq_some_iff.mp inTurn
          refine ⟨[], .refl _, ?_⟩
          simp only [Ledger.record, inHand, hhand, List.tail_cons, List.cons_append,
            List.nil_append]
          exact List.perm_middle.symm
  | redis c =>
      cases c with
      | zAdd key score member =>
          cases r with
          | error e => exact still rfl rfl
          | ok u =>
              refine ⟨[], ?_, ?_⟩ <;> rw [Ledger.record] <;> split <;> exact .refl _
      | zRangeByScore key min max => exact still (by cases r <;> rfl) (by cases r <;> rfl)
      | zRemRangeByScore key min max =>
          cases r with
          | error e => exact still rfl rfl
          | ok n =>
              obtain ⟨rfl, -, empty⟩ : key = "retries" ∧ min = 0 ∧ inHand t = [] := inTurn
              refine ⟨(readItems t).map publication, ?_, ?_⟩
              · rw [← List.map_append]
                exact ((taken _ _ _ _ rfl).append_right _).map publication
              · rw [empty, List.append_nil]
                exact List.perm_append_comm
      | _ => exact inTurn.elim
  | _ => exact inTurn.elim

end Turn

/-! ## Runs -/

/-- Every member that has been taken out is published or in the hand of a process. -/
structure Accounted (s : RetryPool) : Prop where
  queue : (ledger s.history).queue = s.shared.redis.zsets "retries"
  hands : ((ledger s.history).removed.map publication).Perm
    ((ledger s.history).published ++ s.gather fun P => inHand P.trace)

section Runs

variable {uuid : ℕ → String} {w : World} {s s' : RetryPool}

theorem lands_of_undisturbed {pid : ℕ} {ev : CallEvent}
    (permitted : undisturbed s (.turn pid ev) = true) : Lands ev := by
  obtain ⟨call, r⟩ := ev
  cases call with
  | produce topic key value headers =>
      cases r with
      | error e => cases permitted
      | ok u => trivial
  | _ => trivial

/-- Every process makes its calls in turn, and has nothing in hand when it ends. -/
theorem inTurn_of_run (run : (retryQueue uuid).Run (fun s a => undisturbed s a = true) w s)
    {pid : ℕ} {P : RetryProc} (hP : s.procs[pid]? = some P) :
    Program.Always InTurn P.trace ∧ ∀ o, P.rest = .done o → inHand P.trace = [] :=
  run.coherent.local_invariant hP (wp_code P.job) trivial
    (run.events (fun _ _ _ _ _ permitted => lands_of_undisturbed permitted) pid P hP)

/-- A permitted deletion takes out the members that the poll has read. -/
theorem Accounted.taken (h : Accounted s) {pid : ℕ} {P : RetryProc} {ev : CallEvent}
    (hP : s.procs[pid]? = some P) (inTurn : InTurn ev P.trace)
    (permitted : undisturbed s (.turn pid ev) = true) {key : String} {min max : Int} {n : ℕ}
    (heq : ev = ⟨.redis (.zRemRangeByScore key min max), .ok n⟩) :
    (((ledger s.history).queue.filter (Redis.inRange min max)).map Prod.fst).Perm
      (readItems P.trace) := by
  subst heq
  obtain ⟨-, rfl, -⟩ : key = "retries" ∧ min = 0 ∧ _ := inTurn
  rw [h.queue]
  rw [undisturbed, hP, Option.all_some] at permitted
  exact List.isPerm_iff.mp permitted

theorem Accounted.turn (h : Accounted s) {pid : ℕ} {P : RetryProc} {ev : CallEvent}
    {rest : Prog Unit} {shared : World} (hP : s.procs[pid]? = some P)
    (answer : s.shared.faulty uuid pid ev shared) (inTurn : InTurn ev P.trace)
    (permitted : undisturbed s (.turn pid ev) = true) :
    Accounted (s.advance pid P ev rest shared) := by
  refine ⟨queue_record inTurn answer h.queue, ?_⟩
  obtain ⟨moved, hremoved, hpublished⟩ := hand_record inTurn (lands_of_undisturbed permitted)
    fun _ _ _ _ heq => h.taken hP inTurn permitted heq
  obtain ⟨others, before, after⟩ :=
    Pool.gather_advance (fun P => inHand P.trace) hP ev rest shared
  have carried : (moved ++ ((ledger s.history).published ++ (inHand P.trace ++ others))).Perm
      (((ledger s.history).record ev).published ++ (inHand (ev :: P.trace) ++ others)) := by
    simpa only [List.append_assoc] using (hpublished.symm.append_right others)
  calc
    List.Perm (((ledger s.history).record ev).removed.map publication)
        (moved ++ (ledger s.history).removed.map publication) := hremoved
    List.Perm _ (moved ++ ((ledger s.history).published ++ s.gather fun P => inHand P.trace)) :=
      h.hands.append_left _
    List.Perm _ (moved ++ ((ledger s.history).published ++ (inHand P.trace ++ others))) :=
      (before.append_left _).append_left _
    List.Perm _ (((ledger s.history).record ev).published ++
        (inHand (ev :: P.trace) ++ others)) := carried
    List.Perm _ _ := after.symm.append_left _

theorem accounted_of_run (empty : w.redis.zsets "retries" = [])
    (run : (retryQueue uuid).Run (fun s a => undisturbed s a = true) w s) : Accounted s := by
  apply run.invariant ⟨empty.symm, .refl _⟩
  intro s a s' run h step permitted
  have run' := Machine.Run.next run step permitted
  cases step with
  | start _ => exact ⟨h.queue, by rw [Pool.gather_spawn, inHand, List.append_nil]; exact h.hands⟩
  | @turn pid P c next r shared hP hcrashed hrest answer =>
      have hP' : (s.advance pid P ⟨c, r⟩ (next r) shared).procs[pid]? =
          some { P with rest := next r, trace := ⟨c, r⟩ :: P.trace } := by
        rw [Machine.getElem?_advance hP, if_pos rfl]
      exact h.turn hP answer (inTurn_of_run run' hP').1.1 permitted
  | crash _ h => exact h.elim
  | settle _ _ _ h => exact h.elim
  | drift later =>
      obtain ⟨time, -, rfl⟩ := later
      exact ⟨h.queue, h.hands⟩

/-- In every run in which each deletion takes out just what its poll has read and no
publication throws, nothing is lost and nothing is published twice. -/
theorem retry_queue_safe (empty : w.redis.zsets "retries" = [])
    (run : (retryQueue uuid).Run (fun s a => undisturbed s a = true) w s) : QueueSafe s := by
  have accounted := accounted_of_run empty run
  have awaited : s.awaited = s.gather fun P => inHand P.trace := by
    apply List.flatMap_congr
    intro P hP
    obtain ⟨pid, hpid⟩ := List.mem_iff_getElem?.mp hP
    cases hrest : P.rest with
    | done o => exact ((inTurn_of_run run hpid).2 o hrest).symm
    | step c next => rfl
  refine ⟨?_, by rw [NothingLost, awaited]; exact accounted.hands.subperm⟩
  have published : (ledger s.history).published.Subperm
      ((ledger s.history).removed.map publication) :=
    (List.sublist_append_left _ _).subperm.trans accounted.hands.symm.subperm
  have entered := (balanced_ledger s.history).members.map publication
  rw [List.map_append] at entered
  exact published.trans ((List.sublist_append_left _ _).subperm.trans entered.symm.subperm)

end Runs

/-! ## Runs that lose a member or publish it twice -/

/-- A schedule in which every clock shows 0; with `down`, publications throw. -/
def sampleRun (permit : RetryPool → Action Reply JsError RetryJob → Bool) (down : Bool)
    (jobs : List RetryJob) (order : List (ℕ × ℕ)) : RetryPool :=
  Machine.staged (retryQueue toString) permit
    (fun pid c w => w.brokenAnswer (fun c => down && c matches .produce _ _ _ _) toString pid
      { outcome := .ok ⟨true, none⟩ } c) {} jobs order

theorem run_sampleRun {permit : RetryPool → Action Reply JsError RetryJob → Bool}
    (starting : ∀ s job, permit s (.start job) = true) (down : Bool) (jobs : List RetryJob)
    (order : List (ℕ × ℕ)) :
    (retryQueue toString).Run (fun s a => permit s a = true) {}
      (sampleRun permit down jobs order) := by
  refine Machine.Run.staged ?_ (fun _ _ => trivial) starting jobs order
  exact fun _ _ _ _ _ h => World.faulty_brokenAnswer h

/-- A member is added between the two commands of a poll, and the poll deletes it unread. -/
def overtaken : RetryPool :=
  sampleRun (fun _ _ => true) false [.schedule "m-1" "sms" 1 0, .poll, .schedule "m-2" "sms" 1 0]
    [(0, 2), (1, 2), (2, 2), (1, 2)]

/-- The publication of a member that has been deleted throws. -/
def refused : RetryPool :=
  sampleRun (fun _ _ => true) true [.schedule "m-1" "sms" 1 0, .poll] [(0, 2), (1, 4)]

/-- Two polls have read a member before one of them deletes it. -/
def doubled : RetryPool :=
  sampleRun (fun _ _ => true) false [.schedule "m-1" "sms" 1 0, .poll, .poll]
    [(0, 2), (1, 2), (2, 2), (1, 2), (2, 2)]

/-- Members are lost to a deletion in the gap and to a publication that throws, and a
member is published twice. -/
theorem retry_queue_fails :
    ((retryQueue toString).Run (fun _ _ => True) {} overtaken ∧ ¬ NothingLost overtaken) ∧
    ((retryQueue toString).Run (fun _ _ => True) {} refused ∧ ¬ NothingLost refused) ∧
    ((retryQueue toString).Run (fun _ _ => True) {} doubled ∧ ¬ NothingTwice doubled) := by
  refine ⟨⟨?_, fun h => ?_⟩, ⟨?_, fun h => ?_⟩, ⟨?_, fun h => ?_⟩⟩
  · exact (run_sampleRun (fun _ _ => rfl) _ _ _).mono fun _ _ _ => trivial
  · exact absurd h.length_le (by decide)
  · exact (run_sampleRun (fun _ _ => rfl) _ _ _).mono fun _ _ _ => trivial
  · exact absurd h.length_le (by decide)
  · exact (run_sampleRun (fun _ _ => rfl) _ _ _).mono fun _ _ _ => trivial
  · exact absurd h.length_le (by decide)

/-- Two members are published by one of two polls that overlap. -/
def steadied : RetryPool :=
  sampleRun undisturbed false
    [.schedule "m-1" "sms" 1 0, .schedule "m-2" "email" 3 0, .poll, .poll]
    [(0, 2), (1, 2), (2, 3), (3, 2), (2, 2)]

theorem retry_queue_safe_sample :
    (ledger steadied.history).removed.length = 2 ∧ steadied.awaited = [] ∧ QueueSafe steadied :=
  ⟨by decide, rfl, retry_queue_safe (w := {}) rfl (run_sampleRun (fun _ _ => rfl) _ _ _)⟩

end Notification
