import Songsmith.Notice
import Mathlib.Data.List.Forall2

/-!
# Outcomes

When a sequence of computations that may fail gives a result: a bind or a map if its first part
does, and a map over a list if it gives a result at every element. It fails where its first part
does or the rest does, a map over a list at the first element where it fails, so that the errors of
a sequence are those of its parts (`Outcome.FailsWith`). Where a computation has errors of its own
and fails with a value that is not allowed besides, it is enough to say for which values it does
(`Outcome.FailsWith.eq_invalid_iff`). Two computations agree if they fail with the same error or
give results that do (`Outcome.Related`). Notices are reported if all of them can be worded.
-/

namespace Songsmith

namespace Outcome

variable {ε α β γ δ : Type}

/-- A sequence succeeds if its first step does, and what follows from the result of that. -/
theorem bind_eq_ok_iff {x : Except ε α} {f : α → Except ε β} {b : β} :
    x >>= f = .ok b ↔ ∃ a, x = .ok a ∧ f a = .ok b := by
  cases x with
  | error e => simp [bind, Except.bind]
  | ok a => simp [bind, Except.bind]

/-- A sequence fails with the error of its first step, or with that of what follows. -/
theorem bind_eq_error_iff {x : Except ε α} {f : α → Except ε β} {e : ε} :
    x >>= f = .error e ↔ x = .error e ∨ ∃ a, x = .ok a ∧ f a = .error e := by
  cases x with
  | error e' => simp [bind, Except.bind]
  | ok a => simp [bind, Except.bind]

/-- A function of a result is there if the result is. -/
theorem map_eq_ok_iff {x : Except ε α} {f : α → β} {b : β} :
    x.map f = .ok b ↔ ∃ a, x = .ok a ∧ f a = b := by
  cases x with
  | error e => simp [Except.map]
  | ok a => simp [Except.map]

/-- A list is mapped if all of its elements are, one result for each of them. -/
theorem mapM_eq_ok_iff {f : α → Except ε β} {xs : List α} {ys : List β} :
    xs.mapM f = .ok ys ↔ List.Forall₂ (fun x y => f x = .ok y) xs ys := by
  induction xs generalizing ys with
  | nil => cases ys <;> simp [pure, Except.pure]
  | cons x xs ih =>
    rw [List.mapM_cons, bind_eq_ok_iff]
    constructor
    · rintro ⟨y, hy, h⟩
      obtain ⟨ys', hys', h⟩ := bind_eq_ok_iff.1 h
      cases h
      exact .cons hy (ih.1 hys')
    · rintro (_ | ⟨hy, hys⟩)
      exact ⟨_, hy, bind_eq_ok_iff.2 ⟨_, ih.2 hys, rfl⟩⟩

/-- A map over a list fails at the first element where it does. -/
theorem mapM_eq_error_iff {f : α → Except ε β} {xs : List α} {e : ε} :
    xs.mapM f = .error e ↔ ∃ before x after ys, xs = before ++ x :: after ∧
      before.mapM f = .ok ys ∧ f x = .error e := by
  constructor
  · intro h
    induction xs with
    | nil => cases h
    | cons x xs ih =>
      rw [List.mapM_cons] at h
      rcases bind_eq_error_iff.1 h with hx | ⟨y, hy, h⟩
      · exact ⟨[], x, xs, [], rfl, rfl, hx⟩
      · rcases bind_eq_error_iff.1 h with hxs | ⟨ys, hys, h⟩
        · obtain ⟨before, x', after, ys, rfl, hbefore, hx'⟩ := ih hxs
          refine ⟨x :: before, x', after, y :: ys, rfl, ?_, hx'⟩
          rw [List.mapM_cons]
          exact bind_eq_ok_iff.2 ⟨y, hy, bind_eq_ok_iff.2 ⟨ys, hbefore, rfl⟩⟩
        · cases h
  · rintro ⟨before, x, after, ys, rfl, hbefore, hx⟩
    rw [List.mapM_append]
    refine bind_eq_error_iff.2 (.inr ⟨ys, hbefore, bind_eq_error_iff.2 (.inl ?_)⟩)
    rw [List.mapM_cons]
    exact bind_eq_error_iff.2 (.inl hx)

/-- What is done to all inputs before a map over a list can be done to its results. -/
theorem mapM_map_comm {f : α → Except ε α} {g : α → α} (h : ∀ x, f (g x) = (f x).map g)
    (xs : List α) : (xs.map g).mapM f = (xs.mapM f).map (List.map g) := by
  induction xs with
  | nil => rfl
  | cons x xs ih =>
    rw [List.map_cons, List.mapM_cons, List.mapM_cons, ih, h]
    cases f x with
    | error e => rfl
    | ok y => cases xs.mapM f <;> rfl

/-- If every element is related to something, the whole list is, pointwise. -/
theorem exists_forall₂ {R : α → β → Prop} {xs : List α} (h : ∀ x ∈ xs, ∃ y, R x y) :
    ∃ ys, List.Forall₂ R xs ys := by
  induction xs with
  | nil => exact ⟨[], .nil⟩
  | cons x xs ih =>
    obtain ⟨y, hy⟩ := h x List.mem_cons_self
    obtain ⟨ys, hys⟩ := ih fun x hx => h x (List.mem_cons_of_mem _ hx)
    exact ⟨y :: ys, .cons hy hys⟩

/-- A map over a list gives a result if it does so at every element. -/
theorem exists_mapM_eq_ok {f : α → Except ε β} {xs : List α} (h : ∀ x ∈ xs, ∃ y, f x = .ok y) :
    ∃ ys, xs.mapM f = .ok ys := by
  obtain ⟨ys, hys⟩ := exists_forall₂ h
  exact ⟨ys, mapM_eq_ok_iff.2 hys⟩

/-- Elements at the same position of pointwise related lists are related. -/
theorem rel_of_getElem? {R : α → β → Prop} {xs : List α} {ys : List β} (h : List.Forall₂ R xs ys)
    {i : Nat} {x : α} {y : β} (hx : xs[i]? = some x) (hy : ys[i]? = some y) : R x y := by
  obtain ⟨hix, rfl⟩ := List.getElem?_eq_some_iff.1 hx
  obtain ⟨hiy, rfl⟩ := List.getElem?_eq_some_iff.1 hy
  exact h.get hix hiy

/-- What is in the second of pointwise related lists is related to an element of the first. -/
theorem exists_rel_of_mem {R : α → β → Prop} {xs : List α} {ys : List β} (h : List.Forall₂ R xs ys)
    {y : β} (hy : y ∈ ys) : ∃ x ∈ xs, R x y := by
  induction h with
  | nil => cases hy
  | cons hxy _ ih =>
    rcases List.mem_cons.1 hy with rfl | hy
    · exact ⟨_, List.mem_cons_self, hxy⟩
    · obtain ⟨x, hx, hxy⟩ := ih hy
      exact ⟨x, List.mem_cons_of_mem _ hx, hxy⟩

/-- If there is an error, it is one of these. -/
def FailsWith (P : ε → Prop) (x : Except ε α) : Prop := ∀ e, x = .error e → P e

/-- An error that is expected, or a value that is not allowed and of which `P` holds. -/
inductive OrInvalid (Expected : Error → Prop) (P : Invalid → Prop) : Error → Prop
  | expected {e : Error} : Expected e → OrInvalid Expected P e
  | invalid {cause : Invalid} : P cause → OrInvalid Expected P (.invalid cause)

namespace FailsWith

section
variable {P : ε → Prop} {x : Except ε α}

/-- What succeeds has no error. -/
theorem ok (a : α) : FailsWith P (.ok a) := nofun

/-- What fails has one error only. -/
theorem error {e : ε} (h : P e) : FailsWith P (.error e : Except ε α) := by
  rintro _ ⟨⟩
  exact h

/-- A sequence fails as its steps do. -/
theorem bind {f : α → Except ε β} (h : FailsWith P x) (hf : ∀ a, x = .ok a → FailsWith P (f a)) :
    FailsWith P (x >>= f) := by
  intro e he
  rcases bind_eq_error_iff.1 he with he | ⟨a, ha, he⟩
  · exact h e he
  · exact hf a ha e he

/-- A function of a result fails as the result does. -/
theorem map {f : α → β} (h : FailsWith P x) : FailsWith P (x.map f) := by
  cases x with
  | error e =>
    rintro _ ⟨⟩
    exact h e rfl
  | ok a => exact ok _

end

section
variable {Expected : Error → Prop} {P Q : Invalid → Prop} {x : Except Error α}

/-- The causes of invalid input may be widened. -/
theorem imp (h : FailsWith (OrInvalid Expected P) x) (hPQ : ∀ cause, P cause → Q cause) :
    FailsWith (OrInvalid Expected Q) x := by
  intro e he
  cases h e he with
  | expected hexpected => exact .expected hexpected
  | invalid hcause => exact .invalid (hPQ _ hcause)

/-- A computation without errors besides those that are expected. -/
theorem of_false (h : FailsWith (OrInvalid Expected fun _ => False) x) :
    FailsWith (OrInvalid Expected P) x :=
  h.imp fun _ => False.elim

/-- A computation that fails with the values of which `P` holds, wherever it does, and otherwise
with expected errors only. -/
theorem eq_invalid_iff (h : FailsWith (OrInvalid Expected P) x)
    (hexpected : ∀ cause, ¬ Expected (.invalid cause))
    (hinvalid : ∀ cause, P cause → x = .error (.invalid cause)) :
    (∀ cause, x = .error (.invalid cause) ↔ P cause) ∧
      ((¬ ∃ cause, P cause) ↔ (∃ a, x = .ok a) ∨ ∃ e, x = .error e ∧ Expected e) := by
  refine ⟨fun cause => ⟨fun he => ?_, hinvalid cause⟩, fun hnone => ?_, ?_⟩
  · cases h _ he with
    | expected he => exact absurd he (hexpected cause)
    | invalid hcause => exact hcause
  · cases x with
    | ok a => exact .inl ⟨a, rfl⟩
    | error e =>
      cases h e rfl with
      | expected he => exact .inr ⟨e, rfl, he⟩
      | invalid hcause => exact absurd ⟨_, hcause⟩ hnone
  · rintro (⟨a, rfl⟩ | ⟨e, rfl, he⟩) ⟨cause, hcause⟩
    · cases hinvalid cause hcause
    · cases hinvalid cause hcause
      exact hexpected cause he

end

end FailsWith

/-- Two outcomes are the same error, or results that are related. -/
inductive Related (R : α → β → Prop) : Except ε α → Except ε β → Prop
  | error (e : ε) : Related R (.error e) (.error e)
  | ok {a : α} {b : β} : R a b → Related R (.ok a) (.ok b)

/-- Related outcomes are the same error or related results. -/
theorem related_iff {R : α → β → Prop} {x : Except ε α} {y : Except ε β} :
    Related R x y ↔ (∃ e, x = .error e ∧ y = .error e) ∨ ∃ a b, x = .ok a ∧ y = .ok b ∧ R a b := by
  constructor
  · rintro (e | hab)
    · exact .inl ⟨e, rfl, rfl⟩
    · exact .inr ⟨_, _, rfl, rfl, hab⟩
  · rintro (⟨e, rfl, rfl⟩ | ⟨a, b, rfl, rfl, hab⟩)
    · exact .error e
    · exact .ok hab

/-- Equal outcomes are related by equality. -/
theorem Related.of_eq {x y : Except ε α} (h : x = y) : Related Eq x y := by
  subst h
  cases x with
  | error e => exact .error e
  | ok a => exact .ok rfl

/-- The relation between the results may be widened. -/
theorem Related.imp {R S : α → β → Prop} {x : Except ε α} {y : Except ε β} (h : Related R x y)
    (hRS : ∀ a b, R a b → S a b) : Related S x y := by
  cases h with
  | error e => exact .error e
  | ok hab => exact .ok (hRS _ _ hab)

/-- Related outcomes stay related in a sequence, if related results lead to related outcomes. -/
theorem Related.bind {R : α → β → Prop} {S : γ → δ → Prop} {x : Except ε α} {y : Except ε β}
    {f : α → Except ε γ} {g : β → Except ε δ} (h : Related R x y)
    (hfg : ∀ a b, R a b → Related S (f a) (g b)) : Related S (x >>= f) (y >>= g) := by
  cases h with
  | error e => exact .error e
  | ok hab => exact hfg _ _ hab

end Outcome

namespace Traced

variable {notices : List (Except Error Notice)} {done : List Notice}

/-- Notices that can all be made are all reported. -/
theorem result_reportEach_ok (h : ∀ r ∈ notices, ∃ n, r = .ok n) :
    (reportEach done notices).result = .ok () := by
  induction notices generalizing done with
  | nil => rfl
  | cons r notices ih =>
    obtain ⟨n, rfl⟩ := h r List.mem_cons_self
    exact ih fun r hr => h r (List.mem_cons_of_mem _ hr)

/-- If some notices cannot be made, all for the same reason, this is the error. -/
theorem result_reportEach_error {e : Error} (honly : ∀ r ∈ notices, ∀ e', r = .error e' → e' = e)
    (hsome : ∃ r ∈ notices, r = .error e) : (reportEach done notices).result = .error e := by
  induction notices generalizing done with
  | nil =>
    obtain ⟨_, hr, _⟩ := hsome
    cases hr
  | cons r notices ih =>
    cases r with
    | error e' =>
      rw [← honly _ List.mem_cons_self e' rfl]
      rfl
    | ok n =>
      obtain ⟨r, hr, rfl⟩ := hsome
      rcases List.mem_cons.1 hr with hr | hr
      · cases hr
      · exact ih (fun r hr => honly r (List.mem_cons_of_mem _ hr)) ⟨_, hr, rfl⟩

/-- The result of a map over a list does not depend on what is reported. -/
theorem result_mapM {α β : Type} (f : α → Traced β) (xs : List α) :
    (xs.mapM f).result = xs.mapM fun x => (f x).result := by
  suffices h : ∀ done, (List.mapM.loop f xs done).result =
      List.mapM.loop (fun x => (f x).result) xs done from h []
  induction xs with
  | nil => exact fun _ => rfl
  | cons x xs ih =>
    intro done
    simp only [List.mapM.loop, result_bind, ih]

end Traced

end Songsmith
