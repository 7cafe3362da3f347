import Mathlib.Data.List.Basic

/-!
# First come, first served

Requests come one after another, and each is admitted if its key is still free and takes
the key then. If some of the requests are left out, the others are admitted as before,
except for those whose key only a request that was left out had taken.
-/

namespace FirstCome

variable {ρ κ : Type} [DecidableEq κ] (key : ρ → κ)

/-- Every request with whether it is admitted; `taken` tells the keys that are not free. -/
def admissions : (κ → Bool) → List ρ → List (ρ × Bool)
  | _, [] => []
  | taken, r :: rest =>
    (r, !taken (key r)) :: admissions (fun k => taken k || k == key r) rest

/-- What the watched requests get. -/
def admitted (watched : ρ → Bool) (taken : κ → Bool) (requests : List ρ) : List (ρ × Bool) :=
  (admissions key taken requests).filter fun x => watched x.1

/-- A watched request never depends on a request that is not kept: if such a request comes
before it with the same key, then a kept one does too. -/
def Independent (kept watched : ρ → Bool) (taken : κ → Bool) (requests : List ρ) : Prop :=
  ∀ before r after, requests = before ++ r :: after → watched r = true → taken (key r) = false →
    (∃ q ∈ before, kept q = false ∧ key q = key r) → ∃ q ∈ before, kept q = true ∧ key q = key r

variable {key} {kept watched : ρ → Bool} {taken taken' : κ → Bool}

theorem admitted_cons (r : ρ) (rest : List ρ) :
    admitted key watched taken (r :: rest) =
      (if watched r then [(r, !taken (key r))] else []) ++
        admitted key watched (fun k => taken k || k == key r) rest := by
  cases h : watched r <;> simp [admitted, admissions, h]

theorem fst_admitted {requests : List ρ} :
    (admitted key watched taken requests).map Prod.fst = requests.filter watched := by
  induction requests generalizing taken with
  | nil => rfl
  | cons r rest ih =>
      rw [admitted_cons, List.map_append, ih, List.filter_cons]
      cases watched r <;> rfl

/-- Two services with the same watched requests are told apart by whom they admit. -/
theorem admitted_ext {requests requests' : List ρ}
    (same : requests.filter watched = requests'.filter watched)
    (flags : (admitted key watched taken requests).map Prod.snd =
      (admitted key watched taken' requests').map Prod.snd) :
    admitted key watched taken requests = admitted key watched taken' requests' :=
  calc admitted key watched taken requests
      = (requests.filter watched).zip ((admitted key watched taken requests).map Prod.snd) :=
        List.zip_of_prod fst_admitted rfl
    _ = (requests'.filter watched).zip ((admitted key watched taken' requests').map Prod.snd) := by
        rw [same, flags]
    _ = admitted key watched taken' requests' := (List.zip_of_prod fst_admitted rfl).symm

/-- A splitting of a list with a given head. -/
theorem forall_split {p : List ρ → ρ → Prop} {r : ρ} {rest : List ρ} :
    (∀ before x after, r :: rest = before ++ x :: after → p before x) ↔
      p [] r ∧ ∀ before x after, rest = before ++ x :: after → p (r :: before) x := by
  constructor
  · exact fun h => ⟨h [] r rest rfl, fun before x after hrest => h (r :: before) x after (by
      rw [hrest, List.cons_append])⟩
  · rintro ⟨hhead, htail⟩ before x after heq
    cases before with
    | nil =>
        cases heq
        exact hhead
    | cons r' before =>
        rw [List.cons_append, List.cons.injEq] at heq
        obtain ⟨rfl, heq⟩ := heq
        exact htail before x after heq

theorem head_and_rest {r : ρ} {a b : Bool} {as bs : List (ρ × Bool)} :
    (if watched r then [(r, !a)] else []) ++ as = (if watched r then [(r, !b)] else []) ++ bs ↔
      (watched r = true → a = b) ∧ as = bs := by
  cases watched r <;> simp

/-- The law for two starting points, of which the second has fewer keys taken. -/
theorem admitted_filter_iff (sub : ∀ r, watched r = true → kept r = true)
    (fewer : ∀ k, taken' k = true → taken k = true) (requests : List ρ) :
    admitted key watched taken requests = admitted key watched taken' (requests.filter kept) ↔
      ∀ before r after, requests = before ++ r :: after → watched r = true →
        taken' (key r) = false →
        (taken (key r) = true ∨ ∃ q ∈ before, kept q = false ∧ key q = key r) →
        ∃ q ∈ before, kept q = true ∧ key q = key r := by
  induction requests generalizing taken taken' with
  | nil => simp [admitted, admissions]
  | cons r rest ih =>
      rw [forall_split, admitted_cons]
      cases hkept : kept r with
      | false =>
          have hwatched : watched r = false := by
            by_contra h
            rw [sub r (by simpa using h)] at hkept
            cases hkept
          rw [List.filter_cons_of_neg (by simp [hkept]), hwatched, if_neg Bool.false_ne_true,
            List.nil_append, ih fun k hk => by simp [fewer k hk]]
          constructor
          · intro h
            refine ⟨fun hw => absurd hw Bool.false_ne_true,
              fun before x after hrest hw hfree hbefore => ?_⟩
            obtain ⟨q, hq, hkq⟩ := h before x after hrest hw hfree (by
              obtain htaken | ⟨q, hq, hnot, hkey⟩ := hbefore
              · exact .inl (by rw [htaken, Bool.true_or])
              · obtain rfl | hq := List.mem_cons.mp hq
                · exact .inl (by rw [hkey, beq_self_eq_true, Bool.or_true])
                · exact .inr ⟨q, hq, hnot, hkey⟩)
            exact ⟨q, List.mem_cons_of_mem _ hq, hkq⟩
          · rintro ⟨-, h⟩ before x after hrest hw hfree hbefore
            obtain ⟨q, hq, hkq, hkey⟩ := h before x after hrest hw hfree (by
              obtain htaken | ⟨q, hq, hnot⟩ := hbefore
              · rw [Bool.or_eq_true, beq_iff_eq] at htaken
                exact htaken.imp id fun hkey => ⟨r, List.mem_cons_self, hkept, hkey.symm⟩
              · exact .inr ⟨q, List.mem_cons_of_mem _ hq, hnot⟩)
            obtain rfl | hq := List.mem_cons.mp hq
            · exact absurd (hkept.symm.trans hkq) Bool.false_ne_true
            · exact ⟨q, hq, hkq, hkey⟩
      | true =>
          rw [List.filter_cons_of_pos hkept, admitted_cons, head_and_rest, ih fun k hk => by
            rw [Bool.or_eq_true] at hk ⊢
            exact hk.imp_left (fewer k)]
          refine and_congr ⟨fun same hw hfree hbefore => ?_, fun h hw => ?_⟩ ?_
          · obtain htaken | ⟨q, hq, -⟩ := hbefore
            · rw [same hw, hfree] at htaken
              cases htaken
            · cases hq
          · cases hfree : taken' (key r) with
            | true => exact fewer _ hfree
            | false =>
                by_contra htaken
                obtain ⟨q, hq, -⟩ := h hw hfree (.inl (by simpa using htaken))
                cases hq
          · -- a later request with the key of `r` finds it taken with and without the others
            constructor
            · intro h before x after hrest hw hfree hbefore
              by_cases hkey : key x = key r
              · exact ⟨r, List.mem_cons_self, hkept, hkey.symm⟩
              · obtain ⟨q, hq, hkq⟩ := h before x after hrest hw (by simp [hfree, hkey]) (by
                  obtain htaken | ⟨q, hq, hnot, hsame⟩ := hbefore
                  · exact .inl (by rw [htaken, Bool.true_or])
                  · obtain rfl | hq := List.mem_cons.mp hq
                    · exact absurd (hnot.symm.trans hkept) Bool.false_ne_true
                    · exact .inr ⟨q, hq, hnot, hsame⟩)
                exact ⟨q, List.mem_cons_of_mem _ hq, hkq⟩
            · intro h before x after hrest hw hfree hbefore
              rw [Bool.or_eq_false_iff, beq_eq_false_iff_ne] at hfree
              obtain ⟨q, hq, hkq, hsame⟩ := h before x after hrest hw hfree.1 (by
                obtain htaken | ⟨q, hq, hnot⟩ := hbefore
                · rw [Bool.or_eq_true, beq_iff_eq] at htaken
                  exact .inl (htaken.resolve_right hfree.2)
                · exact .inr ⟨q, List.mem_cons_of_mem _ hq, hnot⟩)
              obtain rfl | hq := List.mem_cons.mp hq
              · exact absurd hsame.symm hfree.2
              · exact ⟨q, hq, hkq, hsame⟩

/-- Leaving out the requests that are not kept changes nothing for the watched ones exactly
if these are independent of them. -/
theorem admitted_filter_kept_iff (sub : ∀ r, watched r = true → kept r = true)
    (requests : List ρ) :
    admitted key watched taken requests = admitted key watched taken (requests.filter kept) ↔
      Independent key kept watched taken requests := by
  rw [admitted_filter_iff sub fun _ => id]
  refine forall_congr' fun before => forall_congr' fun r => forall_congr' fun after =>
    imp_congr_right fun _ => imp_congr_right fun _ => imp_congr_right fun hfree => ?_
  simp [hfree]

end FirstCome
