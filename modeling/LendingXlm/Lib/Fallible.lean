import Mathlib.Data.List.Basic

/-!
# Fallible computations

A computation that may trap is an `Except ε`. This file has the inversion lemmas the rest of
the development peels such computations with, and the loop rules for `foldlM`:

* `bind_ok`, `bind_ok_iff`, `bind_error_iff`: what a sequenced computation did;
* `require`, `orThrow`: the assertion and the unwrapping of an option;
* `foldlM_inv`, `foldlM_rel`, `foldlM_sim`: an invariant, a relation to the start, and a
  simulation over a loop;
* `Avoids`: a trap that a computation cannot end in.
-/

namespace Fallible

universe u

variable {ε : Type*} {α β σ : Type u}

/-- Asserts `c`, trapping with `e` when it fails. -/
def require (c : Prop) [Decidable c] (e : ε) : Except ε Unit :=
  if c then .ok () else .error e

/-- Unwraps an option, trapping with `e` on `none`. -/
def orThrow (o : Option α) (e : ε) : Except ε α :=
  match o with
  | some a => .ok a
  | none => .error e

/-! ## Inversion -/

/-- A sequence that returned ran its first half, then its second half on the result. -/
theorem bind_ok {x : Except ε α} {f : α → Except ε β} {b : β} (h : x >>= f = .ok b) :
    ∃ a, x = .ok a ∧ f a = .ok b := by
  cases x with
  | error e => cases h
  | ok a => exact ⟨a, rfl, h⟩

@[simp] theorem bind_ok_iff {x : Except ε α} {f : α → Except ε β} {b : β} :
    x >>= f = .ok b ↔ ∃ a, x = .ok a ∧ f a = .ok b := by
  refine ⟨bind_ok, ?_⟩
  rintro ⟨a, rfl, h⟩
  exact h

/-- A sequence that trapped did so in its first half, or in its second half. -/
theorem bind_error_iff {x : Except ε α} {f : α → Except ε β} {e : ε} :
    x >>= f = .error e ↔ x = .error e ∨ ∃ a, x = .ok a ∧ f a = .error e := by
  cases x with
  | error e' =>
    constructor
    · intro h
      exact .inl (by simpa [bind, Except.bind] using h)
    · rintro (h | ⟨a, h, -⟩)
      · simpa [bind, Except.bind] using h
      · cases h
  | ok a =>
    constructor
    · intro h
      exact .inr ⟨a, rfl, h⟩
    · rintro (h | ⟨a', h, h'⟩)
      · cases h
      · cases h
        exact h'

@[simp] theorem pure_ok_iff {a b : α} : (pure a : Except ε α) = .ok b ↔ a = b := by
  simp [pure, Except.pure]

@[simp] theorem throw_ok_iff {e : ε} {b : α} : (throw e : Except ε α) = .ok b ↔ False := by
  simp [throw, throwThe, MonadExceptOf.throw]

@[simp] theorem ok_bind {a : α} {f : α → Except ε β} : (Except.ok a >>= f) = f a := rfl

@[simp] theorem error_bind {e : ε} {f : α → Except ε β} :
    (Except.error e >>= f) = .error e := rfl

@[simp] theorem map_ok_iff {x : Except ε α} {f : α → β} {b : β} :
    f <$> x = .ok b ↔ ∃ a, x = .ok a ∧ f a = b := by
  cases x <;> simp [Functor.map, Except.map]

@[simp] theorem require_ok_iff {c : Prop} [Decidable c] {e : ε} {u : Unit} :
    require c e = .ok u ↔ c := by
  unfold require
  split <;> simp_all

theorem require_pos {c : Prop} [Decidable c] {e : ε} (h : c) : require c e = .ok () := by
  simp [require, h]

theorem require_error_iff {c : Prop} [Decidable c] {d e : ε} :
    require c e = .error d ↔ ¬ c ∧ e = d := by
  unfold require
  split <;> simp_all

@[simp] theorem orThrow_ok_iff {o : Option α} {e : ε} {a : α} :
    orThrow o e = .ok a ↔ o = some a := by
  cases o <;> simp [orThrow]

theorem orThrow_error_iff {o : Option α} {e e' : ε} :
    orThrow o e = .error e' ↔ o = none ∧ e = e' := by
  cases o <;> simp [orThrow]

/-! ## Loops -/

theorem foldlM_cons_ok {f : σ → α → Except ε σ} {x : α} {xs : List α} {s s' : σ}
    (h : (x :: xs).foldlM f s = .ok s') :
    ∃ t, f s x = .ok t ∧ xs.foldlM f t = .ok s' := by
  rw [List.foldlM_cons] at h
  exact bind_ok h

theorem foldlM_nil_ok {f : σ → α → Except ε σ} {s s' : σ}
    (h : ([] : List α).foldlM f s = .ok s') : s = s' := by
  simpa using h

/-- **Loop invariant.** What every iteration preserves, the whole loop preserves. -/
theorem foldlM_inv {f : σ → α → Except ε σ} {P : σ → Prop} {xs : List α}
    (hstep : ∀ s x s', x ∈ xs → P s → f s x = .ok s' → P s') :
    ∀ {s s' : σ}, P s → xs.foldlM f s = .ok s' → P s' := by
  induction xs with
  | nil =>
    intro s s' hP h
    exact foldlM_nil_ok h ▸ hP
  | cons x xs ih =>
    intro s s' hP h
    obtain ⟨t, hx, ht⟩ := foldlM_cons_ok h
    refine ih (fun s y s' hy => hstep s y s' (List.mem_cons_of_mem _ hy)) ?_ ht
    exact hstep s x t List.mem_cons_self hP hx

/-- A check over a list that passed did so at every element. -/
theorem forM_ok {f : α → Except ε PUnit} {l : List α} {u : PUnit} (h : l.forM f = .ok u) :
    ∀ x ∈ l, f x = .ok ⟨⟩ := by
  induction l with
  | nil => exact fun x hx => absurd hx List.not_mem_nil
  | cons y l ih =>
    obtain ⟨_, hy, hl⟩ := bind_ok h
    rintro x (_ | ⟨_, hx⟩)
    · exact hy
    · exact ih hl x hx

theorem forM_ok_iff {f : α → Except ε PUnit} {l : List α} :
    l.forM f = .ok ⟨⟩ ↔ ∀ x ∈ l, f x = .ok ⟨⟩ := by
  refine ⟨forM_ok, fun h => ?_⟩
  induction l with
  | nil => rfl
  | cons y l ih =>
    change (f y >>= fun _ => l.forM f) = _
    rw [h y List.mem_cons_self, ok_bind]
    exact ih fun x hx => h x (List.mem_cons_of_mem _ hx)

/-- **Loop relation.** A reflexive, transitive relation every iteration moves along relates the
end of the loop to its start. -/
theorem foldlM_rel {f : σ → α → Except ε σ} {R : σ → σ → Prop} {xs : List α}
    (hrefl : ∀ s, R s s) (htrans : ∀ s t u, R s t → R t u → R s u)
    (hstep : ∀ s x s', x ∈ xs → f s x = .ok s' → R s s') :
    ∀ {s s' : σ}, xs.foldlM f s = .ok s' → R s s' := by
  intro s s' h
  exact foldlM_inv (P := R s) (fun t x t' hx ht hf => htrans _ _ _ ht (hstep t x t' hx hf))
    (hrefl s) h

/-- **Loop simulation.** When every iteration of one loop, seen through `π`, is an iteration of
the other, so is the whole loop; the iterations may rely on an invariant `P`. -/
theorem foldlM_sim {τ : Type u} {f : σ → α → Except ε σ} {g : τ → α → Except ε τ} {π : σ → τ}
    {P : σ → Prop} (hpres : ∀ s x s', P s → f s x = .ok s' → P s')
    (hstep : ∀ s x, P s → g (π s) x = (f s x).map π) :
    ∀ {xs : List α} {s : σ}, P s → xs.foldlM g (π s) = (xs.foldlM f s).map π := by
  intro xs
  induction xs with
  | nil =>
    intro s _
    rfl
  | cons x xs ih =>
    intro s hP
    rw [List.foldlM_cons, List.foldlM_cons, hstep s x hP]
    cases hf : f s x with
    | error e => rfl
    | ok t => exact ih (hpres s x t hP hf)

/-! ## Traps that cannot happen -/

/-- The computation does not end in the trap `e`. -/
def Avoids (e : ε) (x : Except ε α) : Prop := x ≠ .error e

namespace Avoids

variable {d e : ε}

theorem pure {a : α} : Avoids e (Pure.pure a : Except ε α) := by
  simp [Avoids, Pure.pure, Except.pure]

theorem bind {x : Except ε α} {f : α → Except ε β} (hx : Avoids e x)
    (hf : ∀ a, x = .ok a → Avoids e (f a)) : Avoids e (x >>= f) := by
  intro h
  rcases bind_error_iff.mp h with h | ⟨a, ha, h⟩
  · exact hx h
  · exact hf a ha h

theorem require {c : Prop} [Decidable c] (hne : d ≠ e) : Avoids e (Fallible.require c d) :=
  fun h => hne (require_error_iff.mp h).2

theorem orThrow {o : Option α} (h : o ≠ none ∨ d ≠ e) : Avoids e (Fallible.orThrow o d) := by
  intro herr
  obtain ⟨hnone, heq⟩ := orThrow_error_iff.mp herr
  exact h.elim (fun h => h hnone) (fun h => h heq)

theorem foldlM {f : σ → α → Except ε σ} (hf : ∀ s x, Avoids e (f s x)) {l : List α} :
    ∀ s, Avoids e (l.foldlM f s) := by
  induction l with
  | nil => exact fun _ => pure
  | cons x l ih =>
    intro s
    rw [List.foldlM_cons]
    exact bind (hf s x) fun t _ => ih t

theorem forM {f : α → Except ε PUnit} (hf : ∀ x, Avoids e (f x)) {l : List α} :
    Avoids e (l.forM f) := by
  induction l with
  | nil => exact pure
  | cons x l ih => exact bind (hf x) fun _ _ => ih

end Avoids

end Fallible
