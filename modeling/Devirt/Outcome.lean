import Mathlib.Data.List.Basic
import Mathlib.Data.List.Forall2

/-! Loops that may raise: what a successful bind, map or fold says about its steps. -/
namespace Devirt.Outcome
variable {ε α β σ τ : Type}

def isOk : Except ε α → Bool
  | .ok _ => true
  | .error _ => false

/-- The value of a computation known to succeed. -/
def get : (m : Except ε α) → isOk m = true → α
  | .ok value, _ => value

theorem get_spec {m : Except ε α} (ok : isOk m = true) : m = .ok (get m ok) := by
  cases m with
  | ok value => rfl
  | error error => cases ok

theorem bind_ok {m : Except ε α} {k : α → Except ε β} {value : β}
    (result : (m >>= k) = .ok value) : ∃ x, m = .ok x ∧ k x = .ok value := by
  cases m with
  | error error => cases result
  | ok x => exact ⟨x, rfl, result⟩

theorem mapM_ok {f : α → Except ε β} {g : α → β} {list : List α}
    (each : ∀ a ∈ list, f a = .ok (g a)) : list.mapM f = .ok (list.map g) := by
  induction list with
  | nil => rfl
  | cons a rest ih =>
    rw [List.mapM_cons, each a (by simp), ih (fun b member => each b (by simp [member]))]
    rfl

theorem mapM_forall₂ {f : α → Except ε β} {list : List α} {bs : List β} (ran : list.mapM f = .ok bs) :
    List.Forall₂ (fun a b => f a = .ok b) list bs := by
  induction list generalizing bs with
  | nil =>
    cases ran
    exact .nil
  | cons a rest ih =>
    rw [List.mapM_cons] at ran
    obtain ⟨b, first, ran⟩ := bind_ok ran
    obtain ⟨others, later, ran⟩ := bind_ok ran
    cases ran
    exact .cons first (ih later)

theorem mapM_append_ok {f : α → Except ε β} {first second : List α} {bs cs : List β}
    (left : first.mapM f = .ok bs) (right : second.mapM f = .ok cs) :
    (first ++ second).mapM f = .ok (bs ++ cs) := by
  rw [List.mapM_append, left, right]
  rfl

theorem mapM_flatMap_ok {f : β → Except ε σ} {lines : α → List β} {g : α → List σ} {list : List α}
    (each : ∀ a ∈ list, (lines a).mapM f = .ok (g a)) :
    (list.flatMap lines).mapM f = .ok (list.flatMap g) := by
  induction list with
  | nil => rfl
  | cons a rest ih =>
    exact mapM_append_ok (each a (by simp)) (ih (fun b member => each b (by simp [member])))

theorem foldlM_cons_ok {f : σ → α → Except ε σ} {s t : σ} {a : α} {rest : List α}
    (run : (a :: rest).foldlM f s = .ok t) : ∃ next, f s a = .ok next ∧ rest.foldlM f next = .ok t :=
  bind_ok (by simpa only [List.foldlM_cons] using run)

/-- A step that fails in every state stops the loop. -/
theorem foldlM_error {f : σ → α → Except ε σ} {list : List α} {a : α} (member : a ∈ list)
    (fails : ∀ s, ∃ e, f s a = .error e) (s : σ) : ∃ e, list.foldlM f s = .error e := by
  obtain ⟨first, second, rfl⟩ := List.append_of_mem member
  rw [List.foldlM_append]
  cases first.foldlM f s with
  | error e => exact ⟨e, rfl⟩
  | ok middle =>
    obtain ⟨e, failed⟩ := fails middle
    exact ⟨e, by simp only [List.foldlM_cons, failed, bind, Except.bind]⟩

/-! Rules for loops, with the part of the list that is left, or done, as an index. -/

/-- What every step preserves, a finished loop preserves. -/
theorem foldlM_invariant {f : σ → α → Except ε σ} {P : List α → σ → Prop} {list : List α} {s t : σ}
    (step : ∀ {a rest s t}, P (a :: rest) s → f s a = .ok t → P rest t)
    (initial : P list s) (run : list.foldlM f s = .ok t) : P [] t := by
  induction list generalizing s with
  | nil =>
    cases run
    exact initial
  | cons a rest ih =>
    obtain ⟨next, first, run⟩ := foldlM_cons_ok run
    exact ih (step initial first) run

/-- A step that succeeds and preserves what it needs never stops the loop. -/
theorem foldlM_total {f : σ → α → Except ε σ} {P : List α → σ → Prop} {list : List α} {s : σ}
    (step : ∀ {a rest s}, P (a :: rest) s → ∃ t, f s a = .ok t ∧ P rest t) (initial : P list s) :
    ∃ t, list.foldlM f s = .ok t ∧ P [] t := by
  induction list generalizing s with
  | nil => exact ⟨s, rfl, initial⟩
  | cons a rest ih =>
    obtain ⟨next, first, holds⟩ := step initial
    obtain ⟨t, run, final⟩ := ih holds
    exact ⟨t, by rw [List.foldlM_cons, first]; exact run, final⟩

/-- The same from the part that is done. -/
theorem foldlM_reaches {f : σ → α → Except ε σ} {P : List α → σ → Prop} {list : List α} {s : σ}
    (step : ∀ {before a after s}, list = before ++ a :: after → P before s →
      ∃ t, f s a = .ok t ∧ P (before ++ [a]) t) (initial : P [] s) :
    ∃ t, list.foldlM f s = .ok t ∧ P list t := by
  have next : ∀ {a after s}, (∃ before, list = before ++ a :: after ∧ P before s) →
      ∃ t, f s a = .ok t ∧ ∃ before, list = before ++ after ∧ P before t := by
    rintro a after s ⟨before, whole, holds⟩
    obtain ⟨t, first, reached⟩ := step whole holds
    exact ⟨t, first, before ++ [a], by rw [whole, List.append_assoc, List.singleton_append], reached⟩
  obtain ⟨t, run, before, whole, final⟩ := foldlM_total
    (P := fun after s => ∃ before, list = before ++ after ∧ P before s) next ⟨[], rfl, initial⟩
  rw [List.append_nil] at whole
  exact ⟨t, run, whole ▸ final⟩

/-- Where one loop takes a step, the other one takes a step that keeps them related. -/
theorem foldlM_simulates {f : σ → α → Except ε σ} {g : τ → α → Except ε τ} {R : List α → σ → τ → Prop}
    {list : List α} {s s' : σ} {t : τ}
    (step : ∀ {a rest s s' t}, R (a :: rest) s t → f s a = .ok s' → ∃ t', g t a = .ok t' ∧ R rest s' t')
    (initial : R list s t) (run : list.foldlM f s = .ok s') :
    ∃ t', list.foldlM g t = .ok t' ∧ R [] s' t' := by
  induction list generalizing s t with
  | nil =>
    cases run
    exact ⟨t, rfl, initial⟩
  | cons a rest ih =>
    obtain ⟨next, first, run⟩ := foldlM_cons_ok run
    obtain ⟨next', first', related⟩ := step initial first
    obtain ⟨t', run', final⟩ := ih related run
    exact ⟨t', by rw [List.foldlM_cons, first']; exact run', final⟩

/-! Two computations side by side. -/

/-- Both stop with the same error, or both give results that are related. -/
inductive Paired (R : α → β → Prop) : Except ε α → Except ε β → Prop
  | ok {a b} (related : R a b) : Paired R (.ok a) (.ok b)
  | error (e : ε) : Paired R (.error e) (.error e)

namespace Paired
variable {R : α → β → Prop} {S : σ → τ → Prop}

theorem refl {R : α → α → Prop} {m : Except ε α} (each : ∀ a, m = .ok a → R a a) : Paired R m m := by
  cases m with
  | error e => exact .error e
  | ok a => exact .ok (each a rfl)

theorem bind {m : Except ε α} {n : Except ε β} {f : α → Except ε σ} {g : β → Except ε τ}
    (first : Paired R m n) (second : ∀ {a b}, R a b → Paired S (f a) (g b)) :
    Paired S (m >>= f) (n >>= g) := by
  cases first with
  | error e => exact .error e
  | ok related => exact second related

/-- A computation beside itself. -/
theorem self (m : Except ε α) : Paired (fun a b => a = b ∧ m = .ok a) m m := refl fun _ ran => ⟨rfl, ran⟩

/-- What is known of the first result may be used for the pair. -/
theorem mono {S : α → β → Prop} {m : Except ε α} {n : Except ε β} (paired : Paired R m n)
    (each : ∀ {a b}, m = .ok a → R a b → S a b) : Paired S m n := by
  cases paired with
  | error e => exact .error e
  | ok related => exact .ok (each rfl related)

theorem of_ok {n : Except ε β} {a : α} (paired : Paired R (.ok a) n) : ∃ b, n = .ok b ∧ R a b := by
  cases paired with
  | ok related => exact ⟨_, rfl, related⟩

/-- Two loops over one list, with the part of it that is done as an index. -/
theorem foldlM {f : α → σ → Except ε α} {g : β → σ → Except ε β} {P : List σ → α → β → Prop}
    {list : List σ} {a : α} {b : β}
    (step : ∀ {before a b} (entry : σ), P before a b → Paired (P (before ++ [entry])) (f a entry) (g b entry))
    (initial : P [] a b) : Paired (P list) (list.foldlM f a) (list.foldlM g b) := by
  have onwards : ∀ before, P before a b → Paired (P (before ++ list)) (list.foldlM f a) (list.foldlM g b) := by
    clear initial
    induction list generalizing a b with
    | nil =>
      intro before holds
      rw [List.append_nil]
      exact .ok holds
    | cons entry rest ih =>
      intro before holds
      simp only [List.foldlM_cons]
      apply (step entry holds).bind
      intro a b related
      rw [← List.singleton_append, ← List.append_assoc]
      exact ih _ related
  exact onwards [] initial

end Paired
end Devirt.Outcome
