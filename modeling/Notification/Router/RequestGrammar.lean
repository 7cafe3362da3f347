import Notification.Router.Validation

/-!
# What the validator accepts

The e-mail pattern has two runs that may both contain dots. Its language is described here
without runs: one `@`, something before it, and after it a dot with something on both sides.
-/

namespace Notification

/-- What the pattern asks of an e-mail address. -/
structure EmailAddress (text : String) : Prop where
  noSpace : ∀ c ∈ text.toList, isJsSpace c = false
  oneAt : text.toList.count '@' = 1
  parts : ∃ name before after, text = name ++ "@" ++ (before ++ "." ++ after) ∧
    name ≠ "" ∧ before ≠ "" ∧ after ≠ ""

/-- The requests that pass. -/
structure Acceptable (r : TextRequest) : Prop where
  tenantId : r.tenantId ≠ ""
  userId : r.userId ≠ ""
  idempotencyKey : r.idempotencyKey ≠ ""
  recipient : r.recipient ≠ ""
  channel : r.channel ∈ ["email", "sms", "whatsapp"]
  body : ∃ c ∈ r.body.toList, isJsSpace c = false
  address : r.channel = "email" → EmailAddress r.recipient

namespace EmailRegex

open RegularExpression

/-- A run of `[^\s@]`. -/
def Run (x : List CharClass) : Prop := x ≠ [] ∧ ∀ c ∈ x, c = .dot ∨ c = .other

theorem mem_notSpaceOrAt {x : List CharClass} :
    x ∈ notSpaceOrAt.matches' ↔ x = [.dot] ∨ x = [.other] := by
  rw [notSpaceOrAt, matches'_add, matches'_char, matches'_char]
  exact Iff.rfl

theorem mem_star_notSpaceOrAt {x : List CharClass} :
    x ∈ notSpaceOrAt.star.matches' ↔ ∀ c ∈ x, c = .dot ∨ c = .other := by
  rw [matches'_star, Language.mem_kstar]
  constructor
  · rintro ⟨letters, rfl, h⟩ c hc
    obtain ⟨letter, hletter, hc⟩ := List.mem_flatten.mp hc
    obtain rfl | rfl := mem_notSpaceOrAt.mp (h letter hletter)
    · exact .inl (List.mem_singleton.mp hc)
    · exact .inr (List.mem_singleton.mp hc)
  · intro h
    refine ⟨x.map fun c => [c], ?_, fun letter hletter => ?_⟩
    · rw [← List.flatMap_def, List.flatMap_singleton']
    · obtain ⟨c, hc, rfl⟩ := List.mem_map.mp hletter
      obtain rfl | rfl := h c hc
      · exact mem_notSpaceOrAt.mpr (.inl rfl)
      · exact mem_notSpaceOrAt.mpr (.inr rfl)

theorem mem_oneOrMore {x : List CharClass} : x ∈ (oneOrMore notSpaceOrAt).matches' ↔ Run x := by
  rw [oneOrMore, matches'_mul, Language.mem_mul]
  constructor
  · rintro ⟨first, hfirst, rest, hrest, rfl⟩
    have hrest := mem_star_notSpaceOrAt.mp hrest
    obtain rfl | rfl := mem_notSpaceOrAt.mp hfirst
    · exact ⟨by simp, List.forall_mem_cons.mpr ⟨.inl rfl, hrest⟩⟩
    · exact ⟨by simp, List.forall_mem_cons.mpr ⟨.inr rfl, hrest⟩⟩
  · rintro ⟨nonempty, h⟩
    obtain ⟨c, rest, rfl⟩ := List.exists_cons_of_ne_nil nonempty
    obtain ⟨hc, hrest⟩ := List.forall_mem_cons.mp h
    have hfirst : [c] ∈ notSpaceOrAt.matches' := by
      obtain rfl | rfl := hc
      · exact mem_notSpaceOrAt.mpr (.inl rfl)
      · exact mem_notSpaceOrAt.mpr (.inr rfl)
    exact ⟨[c], hfirst, rest, mem_star_notSpaceOrAt.mpr hrest, rfl⟩

theorem mem_emailRegex {x : List CharClass} : x ∈ emailRegex.matches' ↔
    ∃ name before after, x = name ++ .at :: (before ++ .dot :: after) ∧
      Run name ∧ Run before ∧ Run after := by
  simp only [emailRegex, matches'_mul, matches'_char, Language.mem_mul, mem_oneOrMore]
  constructor
  · rintro ⟨_, ⟨_, ⟨_, ⟨name, hname, _, rfl, rfl⟩, before, hbefore, rfl⟩, _, rfl, rfl⟩, after,
      hafter, rfl⟩
    exact ⟨name, before, after, by simp, hname, hbefore, hafter⟩
  · rintro ⟨name, before, after, rfl, hname, hbefore, hafter⟩
    exact ⟨_, ⟨_, ⟨_, ⟨name, hname, [.at], rfl, rfl⟩, before, hbefore, rfl⟩, [.dot], rfl, rfl⟩,
      after, hafter, by simp⟩

theorem of_mem_run {c : Char} : CharClass.of c = .dot ∨ CharClass.of c = .other ↔
    c ≠ '@' ∧ isJsSpace c = false := by
  unfold CharClass.of
  split
  · next h => simp [h]
  · next hat =>
      split
      · next hdot =>
          subst hdot
          simpa using by decide
      · split
        · next hspace => simp [hspace]
        · next hspace => simp [hat, hspace]

/-- The characters of a run. -/
theorem run_map {chars : List Char} : Run (chars.map CharClass.of) ↔
    chars ≠ [] ∧ ∀ c ∈ chars, c ≠ '@' ∧ isJsSpace c = false := by
  rw [Run, Ne, List.map_eq_nil_iff, List.forall_mem_map]
  exact and_congr_right fun _ => forall₂_congr fun c _ => of_mem_run

theorem map_eq_append_cons {chars : List Char} {c : CharClass} {x y : List CharClass} :
    chars.map CharClass.of = x ++ c :: y ↔ ∃ first d rest, chars = first ++ d :: rest ∧
      first.map CharClass.of = x ∧ CharClass.of d = c ∧ rest.map CharClass.of = y := by
  rw [List.map_eq_append_iff]
  constructor
  · rintro ⟨first, rest, rfl, hfirst, hrest⟩
    obtain ⟨d, rest, rfl, hd, hrest⟩ := List.map_eq_cons_iff.mp hrest
    exact ⟨first, d, rest, rfl, hfirst, hd, hrest⟩
  · rintro ⟨first, d, rest, rfl, hfirst, hd, hrest⟩
    exact ⟨first, d :: rest, rfl, hfirst, by rw [List.map_cons, hd, hrest]⟩

theorem of_eq_at {c : Char} : CharClass.of c = .at ↔ c = '@' := by
  unfold CharClass.of
  grind

theorem of_eq_dot {c : Char} : CharClass.of c = .dot ↔ c = '.' := by
  unfold CharClass.of
  grind

/-- The pattern on the characters themselves. -/
theorem test_iff_runs {text : String} : test text = true ↔
    ∃ name before after, text.toList = name ++ '@' :: (before ++ '.' :: after) ∧
      Run (name.map CharClass.of) ∧ Run (before.map CharClass.of) ∧
      Run (after.map CharClass.of) := by
  rw [test, rmatch_iff_matches', mem_emailRegex]
  constructor
  · rintro ⟨_, _, _, htext, hname, hbefore, hafter⟩
    obtain ⟨name, c, rest, hchars, rfl, hc, hrest⟩ := map_eq_append_cons.mp htext
    obtain ⟨before, d, after, rfl, rfl, hd, rfl⟩ := map_eq_append_cons.mp hrest
    obtain rfl := of_eq_at.mp hc
    obtain rfl := of_eq_dot.mp hd
    exact ⟨name, before, after, hchars, hname, hbefore, hafter⟩
  · rintro ⟨name, before, after, hchars, hname, hbefore, hafter⟩
    refine ⟨_, _, _, ?_, hname, hbefore, hafter⟩
    exact map_eq_append_cons.mpr ⟨name, '@', before ++ '.' :: after, hchars, rfl, rfl,
      map_eq_append_cons.mpr ⟨before, '.', after, rfl, rfl, rfl, rfl⟩⟩

theorem emailAddress_of_test {text : String} (h : test text = true) : EmailAddress text := by
  obtain ⟨name, before, after, hchars, hname, hbefore, hafter⟩ := test_iff_runs.mp h
  obtain ⟨name_ne, hname⟩ := run_map.mp hname
  obtain ⟨before_ne, hbefore⟩ := run_map.mp hbefore
  obtain ⟨after_ne, hafter⟩ := run_map.mp hafter
  refine ⟨fun c hc => ?_, ?_, String.ofList name, String.ofList before, String.ofList after, ?_,
    ?_, ?_, ?_⟩
  · rw [hchars] at hc
    simp only [List.mem_append, List.mem_cons] at hc
    obtain hc | rfl | hc | rfl | hc := hc
    · exact (hname c hc).2
    · decide
    · exact (hbefore c hc).2
    · decide
    · exact (hafter c hc).2
  · have none {chars : List Char} (h : ∀ c ∈ chars, c ≠ '@' ∧ isJsSpace c = false) :
        chars.count '@' = 0 := List.count_eq_zero.mpr fun hmem => (h _ hmem).1 rfl
    simp [hchars, none hname, none hbefore, none hafter]
  · rw [← String.toList_inj, hchars]
    simp
  · simpa using name_ne
  · simpa using before_ne
  · simpa using after_ne

theorem test_of_emailAddress {text : String} (h : EmailAddress text) : test text = true := by
  obtain ⟨noSpace, oneAt, name, before, after, rfl, name_ne, before_ne, after_ne⟩ := h
  have hchars : (name ++ "@" ++ (before ++ "." ++ after)).toList =
      name.toList ++ '@' :: (before.toList ++ '.' :: after.toList) := by simp
  rw [hchars] at noSpace oneAt
  -- the only `@` is the one in the middle
  have counts : name.toList.count '@' = 0 ∧ before.toList.count '@' = 0 ∧
      after.toList.count '@' = 0 := by
    rw [List.count_append, List.count_cons_self, List.count_append,
      List.count_cons_of_ne (by decide)] at oneAt
    omega
  have run {part : String} (nonempty : part ≠ "") (none : part.toList.count '@' = 0)
      (within : ∀ c ∈ part.toList,
        c ∈ name.toList ++ '@' :: (before.toList ++ '.' :: after.toList)) :
      Run (part.toList.map CharClass.of) := by
    refine run_map.mpr ⟨by simpa using nonempty, fun c hc => ⟨?_, noSpace c (within c hc)⟩⟩
    rintro rfl
    exact List.count_eq_zero.mp none hc
  refine test_iff_runs.mpr ⟨name.toList, before.toList, after.toList, hchars, ?_, ?_, ?_⟩
  · exact run name_ne counts.1 fun c hc => by simp [hc]
  · exact run before_ne counts.2.1 fun c hc => by simp [hc]
  · exact run after_ne counts.2.2 fun c hc => by simp [hc]

theorem test_iff (text : String) : test text = true ↔ EmailAddress text :=
  ⟨emailAddress_of_test, test_of_emailAddress⟩

example : test "a@..." = true ∧ test "a@b." = false ∧ test "a@b@c.d" = false := by decide

end EmailRegex

/-- Only white space is trimmed away altogether. -/
theorem trim_length_ne_zero {text : String} :
    (trim text).length ≠ 0 ↔ ∃ c ∈ text.toList, isJsSpace c = false := by
  have hlength : (trim text).length = 0 ↔ ∀ c ∈ text.toList, isJsSpace c = true := by
    rw [trim, String.length_ofList, List.length_reverse, List.length_eq_zero_iff,
      List.dropWhile_eq_nil_iff]
    simp only [List.mem_reverse]
    constructor
    · intro h
      have : text.toList.dropWhile isJsSpace = [] := by
        by_contra hne
        have := List.head_dropWhile_not isJsSpace hne
        rw [h _ (List.head_mem hne)] at this
        exact absurd this (by decide)
      exact List.dropWhile_eq_nil_iff.mp this
    · exact fun h c hc => h c ((List.dropWhile_sublist _).mem hc)
  rw [Ne, hlength]
  simp

namespace MessageController

theorem missingField_eq (r : TextRequest) : missingField r.toRequest = true ↔
    r.tenantId = "" ∨ r.userId = "" ∨ r.idempotencyKey = "" ∨ r.channel = "" ∨
      r.recipient = "" ∨ r.body = "" := by
  simp [missingField, TextRequest.toRequest, Json.truthy, or_assoc]

/-- The checks of a request whose fields are texts, in order. -/
theorem validateRequest_eq (r : TextRequest) : validateRequest r.toRequest =
    if missingField r.toRequest then .error { message := "Missing required fields" }
    else if r.channel ∉ ["email", "sms", "whatsapp"] then .error { message := "Invalid channel" }
    else if r.channel = "email" ∧ EmailRegex.test r.recipient = false then
      .error { message := "Invalid email recipient" }
    else if r.body = "" ∨ (trim r.body).length = 0 then .error { message := "Empty body" }
    else .ok () := by
  have hchannel : isChannel r.toRequest.channel =
      decide (r.channel ∈ ["email", "sms", "whatsapp"]) := rfl
  have hemail : isText r.toRequest.channel "email" = (r.channel == "email") := rfl
  have hbody : checkBody r.toRequest.body =
      if r.body = "" ∨ (trim r.body).length = 0 then .error { message := "Empty body" }
      else .ok () := by
    simp [checkBody, TextRequest.toRequest]
  have hrecipient : Json.templateText r.toRequest.recipient = .ok r.recipient :=
    Json.templateText_string r.recipient
  rw [validateRequest, hchannel, hemail, hbody, hrecipient]
  simp only [bind, Except.bind, throw, throwThe, MonadExceptOf.throw]
  grind

/-- A check that throws is passed by what comes to the rest. -/
theorem check_eq_ok {p : Prop} [Decidable p] {e : JsError} {rest : Except JsError Unit} :
    (if p then .error e else rest) = .ok () ↔ ¬ p ∧ rest = .ok () := by
  by_cases h : p <;> simp [h]

/-- The validator accepts exactly its grammar. -/
theorem validateRequest_ok_iff (r : TextRequest) :
    validateRequest r.toRequest = .ok () ↔ Acceptable r := by
  simp only [validateRequest_eq, check_eq_ok, missingField_eq, not_or, not_and, not_not,
    Bool.not_eq_false, EmailRegex.test_iff, and_true]
  constructor
  · rintro ⟨⟨tenantId, userId, idempotencyKey, -, recipient, -⟩, channel, address, -, body⟩
    exact ⟨tenantId, userId, idempotencyKey, recipient, channel, trim_length_ne_zero.mp body,
      address⟩
  · rintro ⟨tenantId, userId, idempotencyKey, recipient, channel, body, address⟩
    have channel_ne : r.channel ≠ "" := by
      intro h
      rw [h] at channel
      exact absurd channel (by decide)
    have body_ne : r.body ≠ "" := by
      intro h
      obtain ⟨c, hc, -⟩ := body
      rw [h, String.toList_empty] at hc
      exact absurd hc List.not_mem_nil
    exact ⟨⟨tenantId, userId, idempotencyKey, channel_ne, recipient, body_ne⟩, channel, address,
      body_ne, trim_length_ne_zero.mpr body⟩

end MessageController

end Notification
