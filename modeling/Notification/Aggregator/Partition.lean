import Notification.Aggregator.BatchIdempotencyService
import Notification.Lookup.Glued

/-!
# What the duplicate check makes of a batch

The check asks MySQL for one pair per joined key and looks every message up under its
joined key again. So a message gets the row of the first message with its joined key,
which is its own row only as long as the two have the same pair.
-/

namespace Notification

open Interaction Program Lookup

/-- The joined key of a pair. -/
def joined (pair : Option String × Option String) : String := joinedKey pair.1 pair.2

def MessageToCheckIdempotency.name (m : MessageToCheckIdempotency) :
    Option String × Option String := (m.tenantId, m.idempotencyKey)

def MessageRow.name (r : MessageRow) : Option String × Option String :=
  (some r.tenantId, some r.idempotencyKey)

/-- Tenant and idempotency key of the message are texts. -/
def MessageToCheckIdempotency.Keyed (m : MessageToCheckIdempotency) : Prop :=
  m.tenantId.isSome ∧ m.idempotencyKey.isSome

instance (m : MessageToCheckIdempotency) : Decidable m.Keyed :=
  inferInstanceAs (Decidable (_ ∧ _))

namespace BatchIdempotencyService

theorem extractUnique_go_eq (seen : List String) (messages : List MessageToCheckIdempotency) :
    extractUniqueIdempotencyKeys.go seen messages =
      unseen joined seen (messages.map MessageToCheckIdempotency.name) := by
  induction messages generalizing seen with
  | nil => rfl
  | cons m rest ih =>
      simp only [extractUniqueIdempotencyKeys.go, List.map_cons, unseen, ih]
      rfl

theorem extractUnique_eq (messages : List MessageToCheckIdempotency) :
    extractUniqueIdempotencyKeys messages =
      unseen joined [] (messages.map MessageToCheckIdempotency.name) :=
        extractUnique_go_eq [] messages

/-- The pairs a batch asks for are pairs of its messages. -/
theorem mem_extractUnique {messages : List MessageToCheckIdempotency}
    {k : Option String × Option String} (h : k ∈ extractUniqueIdempotencyKeys messages) :
    ∃ m ∈ messages, k = m.name := by
  rw [extractUnique_eq, mem_unseen] at h
  obtain ⟨m, member, hname⟩ := List.mem_map.mp (List.mem_of_find?_eq_some h.2)
  exact ⟨m, member, hname.symm⟩

theorem extractUnique_ne_nil {messages : List MessageToCheckIdempotency} (h : messages ≠ []) :
    extractUniqueIdempotencyKeys messages ≠ [] := by
  obtain ⟨m, member⟩ := List.exists_mem_of_ne_nil _ h
  obtain ⟨n₀, -, hfirst⟩ := exists_representative joined
    (List.mem_map_of_mem (f := MessageToCheckIdempotency.name) member)
  rw [extractUnique_eq]
  refine List.ne_nil_of_mem (mem_unseen.mpr ⟨List.not_mem_nil, ?_⟩ : n₀ ∈ _)
  rw [representative_congr (glue_of_representative hfirst), hfirst]

theorem selectMessages_eq (db : Database) (keys : List (Option String × Option String)) :
    db.selectMessages ["tenantId", "idempotencyKey"]
        (keys.map fun k => [Expr.text k.1, Expr.text k.2]) =
      db.messages.filter fun r => r.name ∈ keys := by
  have text {field : Option String} {s : String} :
      field.map SqlValue.string = some (.string s) ↔ field = some s := by
    cases field <;> simp
  apply List.filter_congr
  intro r _
  rw [Bool.eq_iff_iff]
  simp only [List.any_map, List.any_eq_true, Function.comp, beq_iff_eq, List.map_cons,
    List.map_nil, Expr.text, Expr.value?, MessageRow.column, List.cons.injEq, and_true, text,
    decide_eq_true_eq]
  constructor
  · rintro ⟨⟨tenantId, key⟩, member, rfl, rfl⟩
    exact member
  · exact fun member => ⟨_, member, rfl, rfl⟩

/-- The rows that the query for a batch returns. -/
def rowsFor (db : Database) (messages : List MessageToCheckIdempotency) : List MessageRow :=
  db.messages.filter fun r => r.name ∈ extractUniqueIdempotencyKeys messages

theorem existingFor_rowsFor (db : Database) (messages : List MessageToCheckIdempotency)
    (m : MessageToCheckIdempotency) :
    existingFor (rowsFor db messages) m.key = answerFor joined MessageRow.name db.messages
      (unseen joined [] (messages.map MessageToCheckIdempotency.name)) m.name := by
  rw [existingFor, rowsFor, extractUnique_eq, answerFor]
  congr! 1
  exact congrArg List.reverse (List.filter_congr fun r _ => by rw [decide_eq_decide])

/-- The entry of a message in the list of duplicates, for the row that was found. -/
def duplicateOf (m : MessageToCheckIdempotency) (existing : MessageRow) : DuplicateMessage where
  messageId := m.messageId
  idempotencyKey := m.idempotencyKey
  status := existing.status.toText
  reason := "Duplicate idempotency key (existing: " ++ existing.messageId ++
    ", status: " ++ existing.status.toText ++ ")"

/-- A message whose key is among the rows is a duplicate, the others are new. -/
theorem partitionBatch_eq (rows : List MessageRow) (messages : List MessageToCheckIdempotency) :
    partitionBatch rows messages =
      { newMessages := messages.filter fun m => (existingFor rows m.key).isNone
        duplicateMessages := messages.filterMap fun m =>
          (existingFor rows m.key).map (duplicateOf m)
        totalProcessed := messages.length } := by
  induction messages with
  | nil => rfl
  | cons m rest ih =>
      rw [partitionBatch, ih]
      cases h : existingFor rows m.key with
      | none => simp [h]
      | some r => simp [h, duplicateOf]

theorem mem_of_existingFor {rows : List MessageRow} {key : String} {r : MessageRow}
    (h : existingFor rows key = some r) : r ∈ rows ∧ r.key = key :=
  ⟨List.mem_reverse.mp (List.mem_of_find?_eq_some h), by simpa using List.find?_some h⟩

theorem existingFor_eq_none {rows : List MessageRow} {key : String} :
    existingFor rows key = none ↔ ∀ r ∈ rows, r.key ≠ key := by
  simp [existingFor]

/-- The delivery loop skips a message if one with its `messageId` is a duplicate. -/
theorem exists_duplicate_iff {rows : List MessageRow} {messages : List MessageToCheckIdempotency}
    {messageId : Option String} :
    ((partitionBatch rows messages).duplicateMessages.any fun dm => dm.messageId == messageId) =
        true ↔
      ∃ m ∈ messages, m.messageId = messageId ∧ (existingFor rows m.key).isSome = true := by
  rw [partitionBatch_eq, List.any_eq_true]
  simp only [List.mem_filterMap, Option.map_eq_some_iff, beq_iff_eq]
  constructor
  · rintro ⟨_, ⟨m, member, r, hr, rfl⟩, rfl⟩
    exact ⟨m, member, rfl, by rw [hr]; rfl⟩
  · rintro ⟨m, member, rfl, hsome⟩
    obtain ⟨r, hr⟩ := Option.isSome_iff_exists.mp hsome
    exact ⟨_, ⟨m, member, r, hr, rfl⟩, rfl⟩

/-! ## Running the check -/

section Run

variable (uuid : ℕ → String) (choose : World → Choice) (w : World)
  {messages : List MessageToCheckIdempotency}

/-- The query is not refused if every message has its pair. -/
theorem selectExisting_check (keyed : ∀ m ∈ messages, m.Keyed) :
    (selectExisting (extractUniqueIdempotencyKeys messages)).check = none := by
  have defined : ¬ (selectExisting (extractUniqueIdempotencyKeys messages)).params.any
      Expr.isUndefined = true := by
    intro undefined
    obtain ⟨x, hx, undefined⟩ := List.any_eq_true.mp undefined
    obtain ⟨key, hkey, hxkey⟩ := List.mem_flatten.mp hx
    obtain ⟨k, member, rfl⟩ := List.mem_map.mp hkey
    obtain ⟨m, hm, rfl⟩ := mem_extractUnique member
    obtain ⟨⟨tenantId, htenant⟩, key, hidem⟩ := (keyed m hm).imp Option.isSome_iff_exists.mp
      Option.isSome_iff_exists.mp
    simp only [MessageToCheckIdempotency.name, htenant, hidem, List.mem_cons, List.not_mem_nil,
      or_false] at hxkey
    rcases hxkey with rfl | rfl <;> cases undefined
  rw [Statement.check, if_neg defined]
  rfl

theorem run_queryExistingMessages (nonempty : messages ≠ [])
    (accepted : (selectExisting (extractUniqueIdempotencyKeys messages)).check = none) :
    (queryExistingMessages (extractUniqueIdempotencyKeys messages)).run
      (World.handler uuid choose) w = (.ok (rowsFor w.db messages), w) := by
  have hkeys : (extractUniqueIdempotencyKeys messages).length ≠ 0 := by
    simpa using extractUnique_ne_nil nonempty
  have hselect := Connection.run_execute_select uuid choose w accepted
  rw [selectMessages_eq] at hselect
  have hquery : queryExistingMessages (extractUniqueIdempotencyKeys messages) =
      Connection.execute (selectExisting (extractUniqueIdempotencyKeys messages)) := if_neg hkeys
  rw [hquery]
  exact hselect

variable (messages) in
/-- The check changes nothing. -/
theorem run_check_of_accepted (accepted : messages ≠ [] →
      (selectExisting (extractUniqueIdempotencyKeys messages)).check = none) :
    (checkBatchIdempotency messages).run (World.handler uuid choose) w =
      (.ok (partitionBatch (rowsFor w.db messages) messages), w) := by
  by_cases hempty : messages = []
  · subst hempty
    rfl
  · simp [checkBatchIdempotency, hempty, withConnection,
      run_queryExistingMessages uuid choose w hempty (accepted hempty)]

theorem run_checkBatchIdempotency (keyed : ∀ m ∈ messages, m.Keyed) :
    (checkBatchIdempotency messages).run (World.handler uuid choose) w =
      (.ok (partitionBatch (rowsFor w.db messages) messages), w) :=
  run_check_of_accepted uuid choose w _ fun _ => selectExisting_check keyed

/-- A refused query ends the check. -/
theorem run_check_of_refused (nonempty : messages ≠ []) {e : JsError}
    (refused : (selectExisting (extractUniqueIdempotencyKeys messages)).check = some e) :
    (checkBatchIdempotency messages).run (World.handler uuid choose) w = (.error e, w) := by
  have hkeys : (extractUniqueIdempotencyKeys messages).length ≠ 0 := by
    simpa using extractUnique_ne_nil nonempty
  have hrun : (queryExistingMessages (extractUniqueIdempotencyKeys messages)).run
      (World.handler uuid choose) w = (.error e, w) := by
    have hquery : queryExistingMessages (extractUniqueIdempotencyKeys messages) =
        Connection.execute (selectExisting (extractUniqueIdempotencyKeys messages)) := if_neg hkeys
    rw [hquery]
    exact Connection.run_execute_refused uuid choose w refused
  simp [checkBatchIdempotency, nonempty, withConnection, hrun]

end Run

/-! ## The partition by exact pairs -/

/-- Each message is put, in the order of the batch, among the new ones or the duplicates;
it is a duplicate if a row has exactly its pair, and that row is reported for it. -/
structure ExactPartition (rows : List MessageRow) (messages : List MessageToCheckIdempotency)
    (result : BatchIdempotencyResult) : Prop where
  processed : result.totalProcessed = messages.length
  new : result.newMessages = messages.filter fun m => !rows.any fun r => r.name == m.name
  duplicates : List.Forall₂ (fun m d => ∃ r ∈ rows, r.name = m.name ∧ d = duplicateOf m r)
    (messages.filter fun m => rows.any fun r => r.name == m.name) result.duplicateMessages

/-- Where a message shares its joined key with an earlier one of another pair, neither of
the two pairs has a row. -/
def Unglued (rows : List MessageRow) (messages : List MessageToCheckIdempotency) : Prop :=
  ∀ m ∈ messages,
    ∀ first ∈ representative joined (messages.map MessageToCheckIdempotency.name) m.name,
      first ≠ m.name → ∀ r ∈ rows, r.name ≠ m.name ∧ r.name ≠ first

instance (rows : List MessageRow) (messages : List MessageToCheckIdempotency) :
    Decidable (Unglued rows messages) := inferInstanceAs (Decidable (∀ _ ∈ _, _))

section Exact

variable {db : Database} {messages : List MessageToCheckIdempotency}
  {m : MessageToCheckIdempotency} {first : Option String × Option String} {r r' : MessageRow}

theorem existingFor_of_representative (h : representative joined
      (messages.map MessageToCheckIdempotency.name) m.name = some first) :
    existingFor (rowsFor db messages) m.key = db.messages.reverse.find? fun r => r.name = first :=
  (existingFor_rowsFor db messages m).trans (answerFor_unseen h)

theorem exists_first (member : m ∈ messages) : ∃ first,
    representative joined (messages.map MessageToCheckIdempotency.name) m.name = some first := by
  obtain ⟨first, -, h⟩ := exists_representative joined
    (List.mem_map_of_mem (f := MessageToCheckIdempotency.name) member)
  exact ⟨first, h⟩

/-- The entry of a duplicate tells which row it was found with. -/
theorem messageId_of_duplicateOf (h : duplicateOf m r = duplicateOf m r') :
    r.messageId = r'.messageId := by
  simp only [duplicateOf, DuplicateMessage.mk.injEq, true_and] at h
  obtain ⟨hstatus, hreason⟩ := h
  rw [hstatus] at hreason
  simpa using hreason

theorem existingFor_of_unglued (unglued : Unglued db.messages messages) (member : m ∈ messages) :
    existingFor (rowsFor db messages) m.key =
      db.messages.reverse.find? fun r => r.name = m.name := by
  obtain ⟨first, hfirst⟩ := exists_first member
  rw [existingFor_of_representative hfirst]
  by_cases heq : first = m.name
  · rw [heq]
  · have apart := unglued m member first hfirst heq
    rw [List.find?_eq_none.mpr fun r hr => by simpa using (apart r (List.mem_reverse.mp hr)).2,
      List.find?_eq_none.mpr fun r hr => by simpa using (apart r (List.mem_reverse.mp hr)).1]

theorem exact_of_unglued (unglued : Unglued db.messages messages) :
    ExactPartition db.messages messages
      (partitionBatch (rowsFor db messages) messages) := by
  rw [partitionBatch_eq]
  have found {m : MessageToCheckIdempotency} (member : m ∈ messages) :
      (db.messages.any fun r => r.name == m.name) =
        (existingFor (rowsFor db messages) m.key).isSome := by
    rw [existingFor_of_unglued unglued member, Bool.eq_iff_iff, List.find?_isSome]
    simp
  refine ⟨rfl, List.filter_congr fun m member => ?_, (forall₂_filterMap fun m member => ?_).mpr ?_⟩
  · rw [found member, Option.not_isSome]
  · rw [found member, Option.isSome_map]
  · intro m member d hd
    obtain ⟨r, hr, rfl⟩ := Option.map_eq_some_iff.mp hd
    rw [existingFor_of_unglued unglued member] at hr
    exact ⟨r, List.mem_reverse.mp (List.mem_of_find?_eq_some hr), by simpa using List.find?_some hr,
      rfl⟩

theorem unglued_of_exact
    (unique : ∀ r ∈ db.messages, ∀ r' ∈ db.messages, r.clashes r' = true → r = r')
    (exact : ExactPartition db.messages messages
      (partitionBatch (rowsFor db messages) messages)) : Unglued db.messages messages := by
  rw [partitionBatch_eq] at exact
  have found {m : MessageToCheckIdempotency} (member : m ∈ messages) :
      (db.messages.any fun r => r.name == m.name) =
        (existingFor (rowsFor db messages) m.key).isSome := by
    have hiff : m ∈ messages.filter (fun m => (existingFor (rowsFor db messages) m.key).isNone) ↔
        m ∈ messages.filter fun m => !db.messages.any fun r => r.name == m.name := by
      rw [← exact.new]
    simp only [List.mem_filter, member, true_and, Option.isNone_iff_eq_none] at hiff
    rw [Bool.eq_iff_iff, ← not_iff_not, Bool.not_eq_true, ← Bool.not_eq_true', ← hiff]
    simp
  intro m member first hfirst hne r hr
  by_contra hnot
  -- one of the pairs has a row, so the message is a duplicate and both have one
  have hsome : (existingFor (rowsFor db messages) m.key).isSome = true := by
    rw [not_and_or, not_not, not_not] at hnot
    cases hnot with
    | inl hname =>
        rw [← found member]
        exact List.any_eq_true.mpr ⟨r, hr, beq_iff_eq.mpr hname⟩
    | inr hname =>
        rw [existingFor_of_representative hfirst, List.find?_isSome]
        exact ⟨r, List.mem_reverse.mpr hr, decide_eq_true hname⟩
  obtain ⟨r₀, hr₀⟩ := Option.isSome_iff_exists.mp hsome
  have reported := (forall₂_filterMap fun m member => by
    rw [found member, Option.isSome_map]).mp exact.duplicates m member _
      (Option.map_eq_some_iff.mpr ⟨r₀, hr₀, rfl⟩)
  obtain ⟨r', hr', hname, hsame⟩ := reported
  rw [existingFor_of_representative hfirst] at hr₀
  have hmem := List.mem_reverse.mp (List.mem_of_find?_eq_some hr₀)
  have hname₀ : r₀.name = first := by simpa using List.find?_some hr₀
  have hrow : r₀ = r' := unique r₀ hmem r' hr'
    (by simp [MessageRow.clashes, messageId_of_duplicateOf hsame])
  exact hne (by rw [← hname₀, hrow, hname])

/-- The check splits a batch by exact pairs if and only if no joined key brings a row into
play that belongs to one pair and not to another one of the batch. -/
theorem partition_exact_iff (uuid : ℕ → String) (choose : World → Choice) {w : World}
    (keyed : ∀ m ∈ messages, m.Keyed)
    (unique : ∀ r ∈ w.db.messages, ∀ r' ∈ w.db.messages, r.clashes r' = true → r = r') :
    (∃ result, (checkBatchIdempotency messages).run (World.handler uuid choose) w =
        (.ok result, w) ∧ ExactPartition w.db.messages messages result) ↔
      Unglued w.db.messages messages := by
  rw [run_checkBatchIdempotency uuid choose w keyed]
  constructor
  · rintro ⟨result, heq, exact⟩
    cases heq
    exact unglued_of_exact unique exact
  · exact fun unglued => ⟨_, rfl, exact_of_unglued unglued⟩

end Exact

/-! ## Two pairs with one joined key -/

section Glued

/-- A message of a batch with this pair. -/
def entryOf (messageId tenantId idempotencyKey : String) : MessageToCheckIdempotency where
  messageId := some messageId
  tenantId := some tenantId
  idempotencyKey := some idempotencyKey
  dedupKey := some ("dedup-" ++ messageId)
  channel := some "sms"
  userId := some "user-1"
  recipient := some "+15550100"
  body := some "hello"
  traceId := none
  attempt := 0

/-- The row of the pair `("acme", "eu:42")`. -/
def recordedRow : MessageRow where
  messageId := "m-0"
  idempotencyKey := "eu:42"
  tenantId := "acme"
  dedupKey := "dedup-0"
  userId := "user-1"
  channel := "sms"
  recipient := "+15550100"
  body := "hello"
  status := .sent
  finalDelivered := true
  attemptCount := 1

def recordedWorld : World := { db := { messages := [recordedRow] } }

/-- Asked with the pair `("acme", "eu:42")`, which has a row, the check also finds
`("acme:eu", "42")`, which has none. -/
theorem partition_exact_fails :
    ((checkBatchIdempotency [entryOf "m-1" "acme" "eu:42", entryOf "m-2" "acme:eu" "42"]).run
      (World.handler toString fun _ => { outcome := .ok ⟨true, none⟩ }) recordedWorld).1.map
        (fun result => (result.newMessages.length, result.duplicateMessages.length)) = .ok (0, 2) ∧
    ¬ ∃ result, (checkBatchIdempotency
        [entryOf "m-1" "acme" "eu:42", entryOf "m-2" "acme:eu" "42"]).run
          (World.handler toString fun _ => { outcome := .ok ⟨true, none⟩ }) recordedWorld =
        (.ok result, recordedWorld) ∧
      ExactPartition recordedWorld.db.messages
        [entryOf "m-1" "acme" "eu:42", entryOf "m-2" "acme:eu" "42"] result := by
  refine ⟨by decide, ?_⟩
  rintro ⟨result, hrun, exact⟩
  have hnew : result.newMessages = [] := by
    cases hrun
    decide
  have hspec := exact.new
  rw [hnew] at hspec
  exact absurd hspec (by decide)

/-- Joined keys that tell the pairs apart. -/
theorem partition_exact_unglued : ∃ result,
    (checkBatchIdempotency [entryOf "m-1" "acme" "eu:42", entryOf "m-2" "acme" "43"]).run
      (World.handler toString fun _ => { outcome := .ok ⟨true, none⟩ }) recordedWorld =
        (.ok result, recordedWorld) ∧
    ExactPartition recordedWorld.db.messages
      [entryOf "m-1" "acme" "eu:42", entryOf "m-2" "acme" "43"] result := by
  refine (partition_exact_iff toString _ ?_ ?_).mpr ?_
  · decide
  · decide
  · decide

end Glued

end BatchIdempotencyService

end Notification
