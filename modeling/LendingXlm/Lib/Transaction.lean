import LendingXlm.Lib.Fallible

/-!
# Transactions

A transaction is an `EStateM ε σ`: it changes a state and may trap. The state a trap leaves
behind is thrown away by whoever runs the transaction, but it tells what happened up to there.

`Triple I P x Q`: from a state with `I` and `P`, `x` keeps `I` whether it returns or traps, and
if it returns `a`, `Q a` holds. A transaction that reads and computes only is a lifted
`Except ε`.

`Ends P T x Q`: from a state with `P`, `x` returns an `a` with `Q a` of the state, or traps with an
error of `T`. With `T` empty this is total correctness. Where state and result need no relation,
`Leads I J T x Q` goes from `I` to `J`, and `Spec I T x Q` keeps `I`. `SpecE I T x Q E` is the same
for an `x` that also carries errors as data, which are then in `E`.

The inversion lemmas `bind_ok_iff`, `lift_ok_iff` and so on say what a transaction that
returned did.
-/

namespace Transaction

variable {ε σ α β : Type}

instance instMonadLiftExceptEStateM : MonadLift (Except ε) (EStateM ε σ) where
  monadLift x s :=
    match x with
    | .ok a => .ok a s
    | .error e => .error e s

/-- The state `x` ends in, whether it returns or traps. -/
def final (x : EStateM ε σ α) (s : σ) : σ :=
  match x s with
  | .ok _ s' => s'
  | .error _ s' => s'

@[simp] theorem final_get_bind {f : σ → EStateM ε σ β} {s : σ} :
    final (get >>= f) s = final (f s) s := rfl

@[simp] theorem final_ok_bind {a : α} {f : α → EStateM ε σ β} {s : σ} :
    final ((liftM (Except.ok a : Except ε α) : EStateM ε σ α) >>= f) s = final (f a) s := rfl

@[simp] theorem final_error_bind {e : ε} {f : α → EStateM ε σ β} {s : σ} :
    final ((liftM (Except.error e : Except ε α) : EStateM ε σ α) >>= f) s = s := rfl

@[simp] theorem final_pure {a : α} {s : σ} : final (pure a : EStateM ε σ α) s = s := rfl

@[simp] theorem final_modify {f : σ → σ} {s : σ} :
    final (modify f : EStateM ε σ PUnit) s = f s := rfl

/-! ## Inversion -/

@[simp] theorem bind_ok_iff {x : EStateM ε σ α} {f : α → EStateM ε σ β} {s s'' : σ} {b : β} :
    (x >>= f) s = .ok b s'' ↔ ∃ a s', x s = .ok a s' ∧ f a s' = .ok b s'' := by
  change EStateM.bind x f s = _ ↔ _
  unfold EStateM.bind
  cases hx : x s <;> simp

@[simp] theorem pure_ok_iff {a b : α} {s s' : σ} :
    (pure a : EStateM ε σ α) s = .ok b s' ↔ a = b ∧ s = s' := by
  change EStateM.Result.ok a s = _ ↔ _
  simp

@[simp] theorem lift_ok_iff {x : Except ε α} {a : α} {s s' : σ} :
    (liftM x : EStateM ε σ α) s = .ok a s' ↔ x = .ok a ∧ s = s' := by
  cases x <;> simp [liftM, monadLift, MonadLift.monadLift]

theorem lift_bind_ok_iff {x : Except ε α} {f : α → EStateM ε σ β} {s s' : σ} {b : β} :
    ((liftM x : EStateM ε σ α) >>= f) s = .ok b s' ↔ ∃ a, x = .ok a ∧ f a s = .ok b s' := by
  simp only [bind_ok_iff, lift_ok_iff]
  constructor
  · rintro ⟨a, _, ⟨hx, rfl⟩, hf⟩
    exact ⟨a, hx, hf⟩
  · rintro ⟨a, hx, hf⟩
    exact ⟨a, s, ⟨hx, rfl⟩, hf⟩

@[simp] theorem get_ok_iff {a s s' : σ} :
    (get : EStateM ε σ σ) s = .ok a s' ↔ s = a ∧ s = s' := by
  change EStateM.Result.ok s s = _ ↔ _
  simp

@[simp] theorem modify_ok_iff {f : σ → σ} {u : PUnit} {s s' : σ} :
    (modify f : EStateM ε σ PUnit) s = .ok u s' ↔ f s = s' := by
  change EStateM.Result.ok PUnit.unit (f s) = _ ↔ _
  simp

@[simp] theorem throw_ok_iff {e : ε} {a : α} {s s' : σ} :
    (throw e : EStateM ε σ α) s = .ok a s' ↔ False := by
  change EStateM.Result.error e s = _ ↔ _
  simp

/-- The last round of a loop over a range. -/
theorem foldlM_range_succ_ok {f : β → Nat → EStateM ε σ β} {b b'' : β} {n : Nat} {s s'' : σ} :
    (List.range (n + 1)).foldlM f b s = .ok b'' s'' ↔
      ∃ b' s', (List.range n).foldlM f b s = .ok b' s' ∧ f b' n s' = .ok b'' s'' := by
  rw [List.range_succ, List.foldlM_append]
  simp only [bind_ok_iff, List.foldlM_cons, List.foldlM_nil, bind_pure]

/-- The accumulators and states between the rounds of a loop over a range. -/
theorem foldlM_range_trace {f : β → Nat → EStateM ε σ β} {b b' : β} {n : Nat} {s s' : σ}
    (h : (List.range n).foldlM f b s = .ok b' s') :
    ∃ (bs : Nat → β) (ss : Nat → σ), bs n = b' ∧ ss n = s' ∧
      (∀ k ≤ n, (List.range k).foldlM f b s = .ok (bs k) (ss k)) ∧
      ∀ k < n, f (bs k) k (ss k) = .ok (bs (k + 1)) (ss (k + 1)) := by
  induction n generalizing b' s' with
  | zero =>
    refine ⟨fun _ => b', fun _ => s', rfl, rfl, fun k hk => ?_, nofun⟩
    obtain rfl : k = 0 := by omega
    exact h
  | succ n ih =>
    obtain ⟨b₁, s₁, hprefix, hlast⟩ := foldlM_range_succ_ok.mp h
    obtain ⟨bs, ss, rfl, rfl, hreach, hstep⟩ := ih hprefix
    refine ⟨Function.update bs (n + 1) b', Function.update ss (n + 1) s', Function.update_self ..,
      Function.update_self .., fun k hk => ?_, fun k hk => ?_⟩
    · by_cases hlast : k = n + 1
      · subst hlast
        rw [Function.update_self, Function.update_self]
        exact h
      · rw [Function.update_of_ne hlast, Function.update_of_ne hlast]
        exact hreach k (by omega)
    · rw [Function.update_of_ne (by omega), Function.update_of_ne (by omega)]
      by_cases hk' : k = n
      · subst hk'
        rw [Function.update_self, Function.update_self]
        exact hlast
      · rw [Function.update_of_ne (by omega), Function.update_of_ne (by omega)]
        exact hstep k (by omega)

/-! ## Triples -/

/-- From `I` and `P`, `x` keeps `I`, and establishes `Q` when it returns. -/
def Triple (I P : σ → Prop) (x : EStateM ε σ α) (Q : α → σ → Prop) : Prop :=
  ∀ s, I s → P s →
    match x s with
    | .ok a s' => I s' ∧ Q a s'
    | .error _ s' => I s'

variable {I P P' : σ → Prop} {Q Q' : α → σ → Prop} {R : β → σ → Prop}

namespace Triple

theorem ok {x : EStateM ε σ α} {s s' : σ} {a : α} (h : Triple I P x Q) (hI : I s) (hP : P s)
    (hx : x s = .ok a s') : I s' ∧ Q a s' := by
  have hs := h s hI hP
  rwa [hx] at hs

theorem final {x : EStateM ε σ α} {s : σ} (h : Triple I P x Q) (hI : I s) (hP : P s) :
    I (final x s) := by
  have hs := h s hI hP
  unfold Transaction.final
  cases hx : x s with
  | ok a s' =>
    rw [hx] at hs
    exact hs.1
  | error e s' =>
    rw [hx] at hs
    exact hs

theorem pure {a : α} (h : ∀ s, I s → P s → Q a s) :
    Triple I P (pure a : EStateM ε σ α) Q :=
  fun s hI hP => ⟨hI, h s hI hP⟩

theorem throw {e : ε} : Triple I P (throw e : EStateM ε σ α) Q :=
  fun _ hI _ => hI

theorem bind {x : EStateM ε σ α} {f : α → EStateM ε σ β} (hx : Triple I P x Q)
    (hf : ∀ a, Triple I (Q a) (f a) R) : Triple I P (x >>= f) R := by
  intro s hI hP
  have h1 := hx s hI hP
  change match EStateM.bind x f s with
    | .ok b s' => I s' ∧ R b s'
    | .error _ s' => I s'
  unfold EStateM.bind
  cases hxs : x s with
  | ok a s' =>
    rw [hxs] at h1
    exact hf a s' h1.1 h1.2
  | error e s' =>
    rw [hxs] at h1
    exact h1

/-- Weaker before, stronger after. -/
theorem conseq {x : EStateM ε σ α} (h : Triple I P' x Q') (hpre : ∀ s, I s → P s → P' s)
    (hpost : ∀ a s, I s → Q' a s → Q a s) : Triple I P x Q := by
  intro s hI hP
  have hs := h s hI (hpre s hI hP)
  cases hx : x s with
  | ok a s' =>
    rw [hx] at hs
    exact ⟨hs.1, hpost a s' hs.1 hs.2⟩
  | error e s' =>
    rw [hx] at hs
    exact hs

theorem pre {x : EStateM ε σ α} (h : Triple I P' x Q) (hpre : ∀ s, I s → P s → P' s) :
    Triple I P x Q :=
  h.conseq hpre fun _ _ _ hQ => hQ

theorem post {x : EStateM ε σ α} (h : Triple I P x Q') (hpost : ∀ a s, I s → Q' a s → Q a s) :
    Triple I P x Q :=
  h.conseq (fun _ _ hP => hP) hpost

/-- Names the state the transaction starts from. -/
theorem start {x : EStateM ε σ α} (h : ∀ s, I s → P s → Triple I (· = s) x Q) :
    Triple I P x Q :=
  fun s hI hP => h s hI hP s hI rfl

/-- What two triples say of one computation. -/
theorem and {x : EStateM ε σ α} (h : Triple I P x Q) (h' : Triple I P' x Q') :
    Triple I (fun s => P s ∧ P' s) x fun a s => Q a s ∧ Q' a s := by
  intro s hI hP
  have h1 := h s hI hP.1
  have h2 := h' s hI hP.2
  cases hx : x s with
  | ok a s' =>
    rw [hx] at h1 h2
    exact ⟨h1.1, h1.2, h2.2⟩
  | error e s' =>
    rw [hx] at h1
    exact h1

/-- A computation that reads no state. -/
theorem lift {x : Except ε α} :
    Triple I P (liftM x : EStateM ε σ α) fun a s => P s ∧ x = .ok a := by
  intro s hI hP
  cases x with
  | ok a => exact ⟨hI, hP, rfl⟩
  | error e => exact hI

theorem get : Triple I P (get : EStateM ε σ σ) fun a s => P s ∧ a = s :=
  fun _ hI hP => ⟨hI, hP, rfl⟩

theorem modify {f : σ → σ} {Q : PUnit → σ → Prop}
    (h : ∀ s, I s → P s → I (f s) ∧ Q PUnit.unit (f s)) :
    Triple I P (modify f : EStateM ε σ PUnit) Q :=
  fun s hI hP => h s hI hP

theorem ite {c : Prop} [Decidable c] {x y : EStateM ε σ α}
    (hx : c → Triple I P x Q) (hy : ¬ c → Triple I P y Q) :
    Triple I P (if c then x else y) Q := by
  split
  · exact hx ‹_›
  · exact hy ‹_›

/-- **Loop rule.** `P b rest` holds before each iteration, `rest` being what is left to do. -/
theorem foldlM {P : β → List α → σ → Prop} {f : β → α → EStateM ε σ β} {l : List α}
    (h : ∀ b x rest, x ∈ l → Triple I (P b (x :: rest)) (f b x) fun b' => P b' rest) :
    ∀ b, Triple I (P b l) (l.foldlM f b) fun b' => P b' [] := by
  suffices hsuf : ∀ ys, ys ⊆ l → ∀ b, Triple I (P b ys) (ys.foldlM f b) fun b' => P b' [] from
    hsuf l (List.Subset.refl l)
  intro ys hsub
  induction ys with
  | nil =>
    intro b
    exact .pure fun _ _ hP => hP
  | cons y ys ih =>
    intro b
    rw [List.foldlM_cons]
    exact .bind (h b y ys (hsub List.mem_cons_self))
      fun b' => ih (fun z hz => hsub (List.mem_cons_of_mem _ hz)) b'

end Triple

/-! ## Moving along a relation -/

/-- However `x` ends, its states are related to the one it started from. -/
def Along (R : σ → σ → Prop) (x : EStateM ε σ α) : Prop :=
  ∀ s, R s (final x s)

namespace Along

variable {R : σ → σ → Prop}

theorem ok {x : EStateM ε σ α} {s s' : σ} {a : α} (h : Along R x) (hx : x s = .ok a s') :
    R s s' := by
  have hs := h s
  unfold final at hs
  rwa [hx] at hs

theorem mono {R' : σ → σ → Prop} {x : EStateM ε σ α} (h : Along R x)
    (himp : ∀ s s', R s s' → R' s s') : Along R' x :=
  fun s => himp _ _ (h s)

theorem modify {f : σ → σ} (h : ∀ s, R s (f s)) : Along R (modify f : EStateM ε σ PUnit) :=
  h

theorem ite {c : Prop} [Decidable c] {x y : EStateM ε σ α} (hx : Along R x) (hy : Along R y) :
    Along R (if c then x else y) := by
  split
  · exact hx
  · exact hy

section Refl

variable [Std.Refl R]

theorem pure {a : α} : Along R (pure a : EStateM ε σ α) :=
  fun s => Std.Refl.refl s

theorem throw {e : ε} : Along R (throw e : EStateM ε σ α) :=
  fun s => Std.Refl.refl s

theorem get : Along R (get : EStateM ε σ σ) :=
  fun s => Std.Refl.refl s

theorem lift {x : Except ε α} : Along R (liftM x : EStateM ε σ α) := by
  intro s
  cases x <;> exact Std.Refl.refl s

end Refl

theorem bind [IsTrans σ R] {x : EStateM ε σ α} {f : α → EStateM ε σ β} (hx : Along R x)
    (hf : ∀ a, Along R (f a)) : Along R (x >>= f) := by
  intro s
  have h1 := hx s
  change R s (final (EStateM.bind x f) s)
  unfold final EStateM.bind at *
  cases hxs : x s with
  | ok a s' =>
    rw [hxs] at h1
    have h2 := hf a s'
    unfold final at h2
    exact Trans.trans h1 h2
  | error e s' =>
    rw [hxs] at h1
    exact h1

theorem foldlM [Std.Refl R] [IsTrans σ R] {f : β → α → EStateM ε σ β} {xs : List α}
    (h : ∀ b x, Along R (f b x)) : ∀ b, Along R (xs.foldlM f b) := by
  induction xs with
  | nil =>
    intro b
    exact .pure
  | cons x xs ih =>
    intro b
    rw [List.foldlM_cons]
    exact .bind (h b x) ih

/-- Assertions that are stable along `R` survive a transaction that moves along `R`. -/
theorem keeps {x : EStateM ε σ α} (h : Along R x) (hI : ∀ s s', R s s' → I s → I s')
    (hP : ∀ s s', R s s' → P s → P s') : Triple I P x fun _ => P := by
  intro s hIs hPs
  have hs := h s
  unfold final at hs
  cases hx : x s with
  | ok a s' =>
    rw [hx] at hs
    exact ⟨hI s s' hs hIs, hP s s' hs hPs⟩
  | error e s' =>
    rw [hx] at hs
    exact hI s s' hs hIs

end Along

/-! ## Naming the traps -/

/-- From `P`, `x` returns with `Q`, or traps with an error of `T`. -/
def Ends (P : σ → Prop) (T : ε → Prop) (x : EStateM ε σ α) (Q : α → σ → Prop) : Prop :=
  ∀ s, P s →
    match x s with
    | .ok a s' => Q a s'
    | .error e _ => T e

namespace Ends

variable {T : ε → Prop}

theorem pure {a : α} (h : ∀ s, P s → Q a s) : Ends P T (pure a : EStateM ε σ α) Q :=
  h

theorem throw {e : ε} (h : T e) : Ends P T (throw e : EStateM ε σ α) Q :=
  fun _ _ => h

theorem bind {x : EStateM ε σ α} {f : α → EStateM ε σ β} (hx : Ends P T x Q)
    (hf : ∀ a, Ends (Q a) T (f a) R) : Ends P T (x >>= f) R := by
  intro s hP
  have h1 := hx s hP
  change match EStateM.bind x f s with
    | .ok b s' => R b s'
    | .error e _ => T e
  unfold EStateM.bind
  cases hxs : x s with
  | ok a s' =>
    rw [hxs] at h1
    exact hf a s' h1
  | error e s' =>
    rw [hxs] at h1
    exact h1

/-- Weaker before, stronger after. -/
theorem conseq {x : EStateM ε σ α} (h : Ends P' T x Q') (hpre : ∀ s, P s → P' s)
    (hpost : ∀ a s, Q' a s → Q a s) : Ends P T x Q := by
  intro s hP
  have hs := h s (hpre s hP)
  cases hx : x s with
  | ok a s' =>
    rw [hx] at hs
    exact hpost a s' hs
  | error e s' =>
    rw [hx] at hs
    exact hs

theorem pre {x : EStateM ε σ α} (h : Ends P' T x Q) (hpre : ∀ s, P s → P' s) : Ends P T x Q :=
  h.conseq hpre fun _ _ hQ => hQ

theorem post {x : EStateM ε σ α} (h : Ends P T x Q') (hpost : ∀ a s, Q' a s → Q a s) :
    Ends P T x Q :=
  h.conseq (fun _ hP => hP) hpost

theorem ok {x : EStateM ε σ α} {s s' : σ} {a : α} (h : Ends P T x Q) (hP : P s)
    (hx : x s = .ok a s') : Q a s' := by
  have hs := h s hP
  rwa [hx] at hs

/-- Names the state the transaction starts from. -/
theorem start {x : EStateM ε σ α} (h : ∀ s, P s → Ends (· = s) T x Q) : Ends P T x Q :=
  fun s hP => h s hP s rfl

/-- A computation that reads no state. -/
theorem lift {x : Except ε α} (hok : ∀ a, x = .ok a → ∀ s, P s → Q a s)
    (herr : ∀ e, x = .error e → T e) : Ends P T (liftM x : EStateM ε σ α) Q := by
  intro s hP
  cases x with
  | ok a => exact hok a rfl s hP
  | error e => exact herr e rfl

theorem require {c : Prop} [Decidable c] {e : ε} (h : ¬ c → T e) :
    Ends P T (liftM (Fallible.require c e) : EStateM ε σ Unit) fun _ s => P s ∧ c := by
  refine lift (fun _ hok s hP => ⟨hP, Fallible.require_ok_iff.mp hok⟩) fun d herr => ?_
  obtain ⟨hc, rfl⟩ := Fallible.require_error_iff.mp herr
  exact h hc

theorem orThrow {o : Option α} {e : ε} (h : o = none → T e) :
    Ends P T (liftM (Fallible.orThrow o e) : EStateM ε σ α) fun a s => P s ∧ o = some a := by
  refine lift (fun _ hok s hP => ⟨hP, Fallible.orThrow_ok_iff.mp hok⟩) fun d herr => ?_
  obtain ⟨ho, rfl⟩ := Fallible.orThrow_error_iff.mp herr
  exact h ho

theorem ite {c : Prop} [Decidable c] {x y : EStateM ε σ α} (hx : c → Ends P T x Q)
    (hy : ¬ c → Ends P T y Q) : Ends P T (if c then x else y) Q := by
  split
  · exact hx ‹_›
  · exact hy ‹_›

theorem get : Ends P T (get : EStateM ε σ σ) fun a s => a = s ∧ P s :=
  fun _ hP => ⟨rfl, hP⟩

/-- Reads the state; what follows starts from the state that was read. -/
theorem get_bind {f : σ → EStateM ε σ β} (hf : ∀ s, P s → Ends (· = s) T (f s) R) :
    Ends P T (MonadState.get >>= f) R :=
  fun s hP => hf s hP s rfl

theorem set {s' : σ} {Q : PUnit → σ → Prop} (h : ∀ s, P s → Q PUnit.unit s') :
    Ends P T (MonadStateOf.set s' : EStateM ε σ PUnit) Q :=
  h

theorem modify {f : σ → σ} {Q : PUnit → σ → Prop} (h : ∀ s, P s → Q PUnit.unit (f s)) :
    Ends P T (modify f : EStateM ε σ PUnit) Q :=
  h

/-- **Loop rule.** `P b rest` holds before each iteration, `rest` being what is left to do. -/
theorem foldlM {P : β → List α → σ → Prop} {f : β → α → EStateM ε σ β} {l : List α}
    (h : ∀ b x rest, x ∈ l → Ends (P b (x :: rest)) T (f b x) fun b' => P b' rest) :
    ∀ b, Ends (P b l) T (l.foldlM f b) fun b' => P b' [] := by
  suffices hsuf : ∀ ys, ys ⊆ l → ∀ b, Ends (P b ys) T (ys.foldlM f b) fun b' => P b' [] from
    hsuf l (List.Subset.refl l)
  intro ys hsub
  induction ys with
  | nil => exact fun b => pure fun _ hP => hP
  | cons y ys ih =>
    intro b
    rw [List.foldlM_cons]
    exact bind (h b y ys (hsub List.mem_cons_self))
      fun b' => ih (fun z hz => hsub (List.mem_cons_of_mem _ hz)) b'

/-- **Loop rule**, for a loop without an accumulator. -/
theorem forM {P : List α → σ → Prop} {f : α → EStateM ε σ PUnit} {l : List α}
    (h : ∀ x rest, x ∈ l → Ends (P (x :: rest)) T (f x) fun _ => P rest) :
    Ends (P l) T (l.forM f) fun _ => P [] := by
  suffices hsuf : ∀ ys, ys ⊆ l → Ends (P ys) T (ys.forM f) fun _ => P [] from
    hsuf l (List.Subset.refl l)
  intro ys hsub
  induction ys with
  | nil => exact pure fun _ hP => hP
  | cons y ys ih =>
    exact bind (h y ys (hsub List.mem_cons_self))
      fun _ => ih fun z hz => hsub (List.mem_cons_of_mem _ hz)

end Ends

/-- Where `x` returns, its state is related to the one it started from. Unlike `Along`, this says
nothing of the states a trap leaves behind. -/
def Reaches (R : σ → σ → Prop) (x : EStateM ε σ α) : Prop :=
  ∀ s, Ends (· = s) (fun _ => True) x fun _ s' => R s s'

namespace Reaches

variable {R : σ → σ → Prop}

theorem ok {x : EStateM ε σ α} {s s' : σ} {a : α} (h : Reaches R x) (hx : x s = .ok a s') :
    R s s' :=
  (h s).ok rfl hx

theorem of_along {x : EStateM ε σ α} (h : Along R x) : Reaches R x := by
  rintro _ s rfl
  cases hx : x s with
  | ok a s' => exact h.ok hx
  | error e s' => trivial

theorem modify {f : σ → σ} (h : ∀ s, R s (f s)) : Reaches R (modify f : EStateM ε σ PUnit) :=
  of_along (Along.modify h)

theorem ite {c : Prop} [Decidable c] {x y : EStateM ε σ α} (hx : Reaches R x)
    (hy : Reaches R y) : Reaches R (if c then x else y) :=
  fun s => Ends.ite (fun _ => hx s) fun _ => hy s

theorem bind [IsTrans σ R] {x : EStateM ε σ α} {f : α → EStateM ε σ β} (hx : Reaches R x)
    (hf : ∀ a, Reaches R (f a)) : Reaches R (x >>= f) :=
  fun s => Ends.bind (hx s) fun a => Ends.start fun t hst =>
    (hf a t).post fun _ _ htu => Trans.trans hst htu

section Refl

variable [Std.Refl R]

theorem pure {a : α} : Reaches R (pure a : EStateM ε σ α) := of_along Along.pure

theorem get : Reaches R (get : EStateM ε σ σ) := of_along Along.get

theorem lift {x : Except ε α} : Reaches R (liftM x : EStateM ε σ α) := of_along Along.lift

theorem foldlM [IsTrans σ R] {f : β → α → EStateM ε σ β} {xs : List α}
    (h : ∀ b x, Reaches R (f b x)) (b : β) : Reaches R (xs.foldlM f b) :=
  fun s => (Ends.foldlM (P := fun _ _ t => R s t) (fun b x _ _ => Ends.start fun t hst =>
    (h b x t).post fun _ _ htu => Trans.trans hst htu) b).pre fun t ht => ht ▸ Std.Refl.refl t

end Refl

/-- Assertions that are stable along `R` survive a transaction that reaches along `R`. -/
theorem keeps {x : EStateM ε σ α} (h : Reaches R x) (hP : ∀ s s', R s s' → P s → P s') :
    Ends P (fun _ => True) x fun _ => P :=
  Ends.start fun s hs => (h s).post fun _ s' hr => hP s s' hr hs

end Reaches

/-- From `I`, `x` returns with `J` and `Q`, or traps with an error of `T`. -/
def Leads (I J : σ → Prop) (T : ε → Prop) (x : EStateM ε σ α) (Q : α → Prop) : Prop :=
  Ends I T x fun a s => J s ∧ Q a

/-- From `I`, `x` returns with `I` and `Q`, or traps with an error of `T`. -/
def Spec (I : σ → Prop) (T : ε → Prop) (x : EStateM ε σ α) (Q : α → Prop) : Prop :=
  Leads I I T x Q

theorem Leads.bind {I J K : σ → Prop} {T : ε → Prop} {Q : α → Prop} {R : β → Prop}
    {x : EStateM ε σ α} {f : α → EStateM ε σ β} (hx : Leads I J T x Q)
    (hf : ∀ a, Q a → Leads J K T (f a) R) : Leads I K T (x >>= f) R :=
  Ends.bind hx fun a s h => hf a h.2 s h.1

theorem Leads.modify {I J : σ → Prop} {T : ε → Prop} {f : σ → σ} {Q : PUnit → Prop}
    (hI : ∀ s, I s → J (f s)) (hQ : Q PUnit.unit) :
    Leads I J T (modify f : EStateM ε σ PUnit) Q :=
  fun s hs => ⟨hI s hs, hQ⟩

namespace Spec

variable {T : ε → Prop} {Q Q' : α → Prop} {R : β → Prop}

theorem ok {x : EStateM ε σ α} {s s' : σ} {a : α} (h : Spec I T x Q) (hI : I s)
    (hx : x s = .ok a s') : I s' ∧ Q a := by
  have hs := h s hI
  rwa [hx] at hs

theorem error {x : EStateM ε σ α} {s s' : σ} {e : ε} (h : Spec I T x Q) (hI : I s)
    (hx : x s = .error e s') : T e := by
  have hs := h s hI
  rwa [hx] at hs

/-- Without traps there is a result. -/
theorem returns {x : EStateM ε σ α} {s : σ} (h : Spec I (fun _ => False) x Q) (hI : I s) :
    ∃ a s', x s = .ok a s' ∧ I s' ∧ Q a := by
  have hs := h s hI
  cases hx : x s with
  | ok a s' =>
    rw [hx] at hs
    exact ⟨a, s', rfl, hs⟩
  | error e s' =>
    rw [hx] at hs
    exact hs.elim

theorem pure {a : α} (h : Q a) : Spec I T (pure a : EStateM ε σ α) Q :=
  fun _ hI => ⟨hI, h⟩

theorem throw {e : ε} (h : T e) : Spec I T (throw e : EStateM ε σ α) Q :=
  fun _ _ => h

theorem post {x : EStateM ε σ α} (h : Spec I T x Q') (hpost : ∀ a, Q' a → Q a) :
    Spec I T x Q := by
  intro s hI
  have hs := h s hI
  cases hx : x s with
  | ok a s' =>
    rw [hx] at hs
    exact ⟨hs.1, hpost a hs.2⟩
  | error e s' =>
    rw [hx] at hs
    exact hs

/-- Of a computation nothing is known of. -/
theorem any {x : EStateM ε σ α} :
    Spec (fun _ => True) (fun _ => True) x fun _ => True := by
  intro s _
  cases x s <;> simp

/-- What `x` returns wherever it starts, besides what it keeps. -/
theorem returning {x : EStateM ε σ α} (h : Spec I T x Q)
    (hx : Spec (fun _ => True) (fun _ => True) x Q') : Spec I T x Q' := by
  intro s hI
  have hs := h s hI
  cases hrun : x s with
  | ok a s' =>
    rw [hrun] at hs
    exact ⟨hs.1, (hx.ok trivial hrun).2⟩
  | error e s' =>
    rw [hrun] at hs
    exact hs

/-- Without traps, any bound on the traps will do. -/
theorem sure {x : EStateM ε σ α} (h : Spec I (fun _ => False) x Q) : Spec I T x Q := by
  intro s hI
  obtain ⟨a, s', hx, hs⟩ := h.returns hI
  rw [hx]
  exact hs

theorem bind {x : EStateM ε σ α} {f : α → EStateM ε σ β} (hx : Spec I T x Q)
    (hf : ∀ a, Q a → Spec I T (f a) R) : Spec I T (x >>= f) R :=
  Leads.bind hx hf

theorem lift {x : Except ε α} (hok : ∀ a, x = .ok a → Q a) (herr : ∀ e, x = .error e → T e) :
    Spec I T (liftM x : EStateM ε σ α) Q := by
  intro s hI
  cases x with
  | ok a => exact ⟨hI, hok a rfl⟩
  | error e => exact herr e rfl

theorem ite {c : Prop} [Decidable c] {x y : EStateM ε σ α} (hx : c → Spec I T x Q)
    (hy : ¬ c → Spec I T y Q) : Spec I T (if c then x else y) Q :=
  Ends.ite hx hy

/-- Reads the state; what follows starts from the state that was read. -/
theorem get_bind {f : σ → EStateM ε σ β}
    (hf : ∀ s, I s → match f s s with
      | .ok b s' => I s' ∧ R b
      | .error e _ => T e) : Spec I T (get >>= f) R :=
  hf

theorem get : Spec I T (get : EStateM ε σ σ) I :=
  fun _ hI => ⟨hI, hI⟩

theorem modify {f : σ → σ} {Q : PUnit → Prop} (hI : ∀ s, I s → I (f s)) (hQ : Q PUnit.unit) :
    Spec I T (modify f : EStateM ε σ PUnit) Q :=
  Leads.modify hI hQ

/-- **Loop rule.** `P b done` holds after the iterations over `done`. -/
theorem foldlM {P : β → List α → Prop} {f : β → α → EStateM ε σ β} {l : List α}
    (h : ∀ b x done, x ∈ l → P b done → Spec I T (f b x) fun b' => P b' (done ++ [x])) :
    ∀ b, P b [] → Spec I T (l.foldlM f b) fun b' => P b' l := by
  suffices hsuf : ∀ ys done, done ++ ys = l → ∀ b, P b done →
      Spec I T (ys.foldlM f b) fun b' => P b' l from hsuf l [] rfl
  intro ys
  induction ys with
  | nil =>
    intro done hl b hb
    rw [List.append_nil] at hl
    subst hl
    exact pure hb
  | cons y ys ih =>
    intro done hl b hb
    rw [List.foldlM_cons]
    have hy : y ∈ l := by
      rw [← hl]
      simp
    refine bind (h b y done hy hb) fun b' hb' => ih (done ++ [y]) ?_ b' hb'
    rw [List.append_assoc]
    exact hl

end Spec

/-- What `x` returns wherever it starts, besides what it establishes. -/
theorem Triple.returning {x : EStateM ε σ α} {Q' : α → Prop} (h : Triple I P x Q)
    (hx : Spec (fun _ => True) (fun _ => True) x Q') : Triple I P x fun a s => Q a s ∧ Q' a := by
  intro s hI hP
  have hs := h s hI hP
  cases hrun : x s with
  | ok a s' =>
    rw [hrun] at hs
    exact ⟨hs.1, hs.2, (hx.ok trivial hrun).2⟩
  | error e s' =>
    rw [hrun] at hs
    exact hs

/-! ## Errors as data -/

section Data

variable {δ : Type}

/-- The values an error-carrying result may have. -/
def Carries (Q : α → Prop) (E : δ → Prop) : Except δ α → Prop
  | .ok a => Q a
  | .error e => E e

/-- `Spec` of a transaction with errors as data. -/
def SpecE (I : σ → Prop) (T : ε → Prop) (x : ExceptT δ (EStateM ε σ) α) (Q : α → Prop)
    (E : δ → Prop) : Prop :=
  Spec I T x.run (Carries Q E)

/-- A step that carries no error moves on. -/
theorem Leads.bindE {I J K : σ → Prop} {T : ε → Prop} {Q : α → Prop} {R : Except δ β → Prop}
    {x : ExceptT δ (EStateM ε σ) α} {f : α → ExceptT δ (EStateM ε σ) β}
    (hx : Leads I J T x.run (Carries Q fun _ => False))
    (hf : ∀ a, Q a → Leads J K T (f a).run R) : Leads I K T (x >>= f).run R := by
  refine Leads.bind hx ?_
  rintro (e | a) hr
  · exact hr.elim
  · exact hf a hr

/-- A transaction without errors of its own. -/
theorem Leads.engine {I J : σ → Prop} {T : ε → Prop} {Q : α → Prop} {E : δ → Prop}
    {x : EStateM ε σ α} (h : Leads I J T x Q) :
    Leads I J T (liftM x : ExceptT δ (EStateM ε σ) α).run (Carries Q E) := by
  refine Leads.bind h ?_
  intro a ha
  exact fun _ hJ => ⟨hJ, ha⟩

namespace SpecE

variable {T : ε → Prop} {Q Q' : α → Prop} {R : β → Prop} {E : δ → Prop}

theorem pure {a : α} (h : Q a) : SpecE I T (pure a : ExceptT δ (EStateM ε σ) α) Q E :=
  fun _ hI => ⟨hI, h⟩

theorem throw {e : δ} (h : E e) : SpecE I T (throw e : ExceptT δ (EStateM ε σ) α) Q E :=
  fun _ hI => ⟨hI, h⟩

theorem post {x : ExceptT δ (EStateM ε σ) α} (h : SpecE I T x Q' E) (hpost : ∀ a, Q' a → Q a) :
    SpecE I T x Q E := by
  refine Spec.post h ?_
  rintro (e | a) hr
  · exact hr
  · exact hpost a hr

/-- Without errors, any bound on the errors will do. -/
theorem sure {x : ExceptT δ (EStateM ε σ) α} (h : SpecE I T x Q fun _ => False) :
    SpecE I T x Q E := by
  refine Spec.post h ?_
  rintro (e | a) hr
  · exact hr.elim
  · exact hr

theorem bind {x : ExceptT δ (EStateM ε σ) α} {f : α → ExceptT δ (EStateM ε σ) β}
    (hx : SpecE I T x Q E) (hf : ∀ a, Q a → SpecE I T (f a) R E) : SpecE I T (x >>= f) R E := by
  refine Spec.bind (x := x.run) hx ?_
  rintro (e | a) hr
  · exact Spec.pure hr
  · exact hf a hr

/-- A transaction without errors of its own. -/
theorem engine {x : EStateM ε σ α} (h : Spec I T x Q) :
    SpecE I T (liftM x : ExceptT δ (EStateM ε σ) α) Q E := by
  refine Spec.bind h ?_
  intro a ha
  exact Spec.pure ha

/-- A computation whose only effect is an error as data. -/
theorem data {x : Except δ α} (hok : ∀ a, x = .ok a → Q a) (herr : ∀ e, x = .error e → E e) :
    SpecE I T (liftM x : ExceptT δ (EStateM ε σ) α) Q E := by
  intro s hI
  cases x with
  | ok a => exact ⟨hI, hok a rfl⟩
  | error e => exact ⟨hI, herr e rfl⟩

theorem foldlM {f : β → α → ExceptT δ (EStateM ε σ) β} {l : List α} {P : β → List α → Prop}
    (h : ∀ b x done, x ∈ l → P b done → SpecE I T (f b x) (fun b' => P b' (done ++ [x])) E) :
    ∀ b, P b [] → SpecE I T (l.foldlM f b) (fun b' => P b' l) E := by
  suffices hsuf : ∀ ys done, done ++ ys = l → ∀ b, P b done →
      SpecE I T (ys.foldlM f b) (fun b' => P b' l) E from hsuf l [] rfl
  intro ys
  induction ys with
  | nil =>
    intro done hl b hb
    rw [List.append_nil] at hl
    subst hl
    exact pure hb
  | cons y ys ih =>
    intro done hl b hb
    rw [List.foldlM_cons]
    have hy : y ∈ l := by
      rw [← hl]
      simp
    refine bind (h b y done hy hb) fun b' hb' => ih (done ++ [y]) ?_ b' hb'
    rw [List.append_assoc]
    exact hl

end SpecE

end Data

/-! ## Naming the result -/

/-- From `I`, `x` returns `a` and keeps `I`. -/
abbrev Computes (I : σ → Prop) (x : EStateM ε σ α) (a : α) : Prop :=
  Spec I (fun _ => False) x (· = a)

namespace Computes

theorem pure {a : α} : Computes I (pure a : EStateM ε σ α) a :=
  Spec.pure rfl

theorem bind {x : EStateM ε σ α} {f : α → EStateM ε σ β} {a : α} {b : β}
    (hx : Computes I x a) (hf : Computes I (f a) b) : Computes I (x >>= f) b :=
  Spec.bind hx fun _ ha => ha ▸ hf

/-- The result of a transaction with errors as data. -/
theorem bindE {δ : Type} {x : ExceptT δ (EStateM ε σ) α} {f : α → ExceptT δ (EStateM ε σ) β}
    {r : Except δ α} {g : α → Except δ β} (hx : Computes I x.run r)
    (hf : ∀ a, r = .ok a → Computes I (f a).run (g a)) : Computes I (x >>= f).run (r >>= g) := by
  refine Computes.bind (x := x.run) hx ?_
  cases r with
  | error e => exact pure
  | ok a => exact hf a rfl

theorem engine {δ : Type} {x : EStateM ε σ α} {a : α} (hx : Computes I x a) :
    Computes I (liftM x : ExceptT δ (EStateM ε σ) α).run (.ok a) :=
  Computes.bind hx pure

/-- The result, from what it is in either case. -/
theorem ofSpecE {δ : Type} {x : ExceptT δ (EStateM ε σ) α} {r : Except δ α}
    (h : SpecE I (fun _ => False) x (fun a => r = .ok a) fun e => r = .error e) :
    Computes I x.run r := by
  refine Spec.post h ?_
  rintro (e | a) hr
  · exact hr.symm
  · exact hr.symm

theorem data {δ : Type} {x : Except δ α} :
    Computes I (liftM x : ExceptT δ (EStateM ε σ) α).run x := by
  intro s hI
  cases x <;> exact ⟨hI, rfl⟩

end Computes

end Transaction
