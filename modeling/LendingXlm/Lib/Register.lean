import Mathlib.Order.Monotone.Defs
import Mathlib.Data.Nat.Basic

/-!
# Versioned registers

A register holds a value or nothing, and a version. Every write of a value moves the version; a
removal keeps it, so that a value written later never passes for the one that was there before.

`Move` lists the writes. Each of the relations below is kept by the writes it is about and closed
under composition, and so holds over any number of them:

- `Fresh`: the version never goes back, and a version met again means the same value, or none;
- `Grows`: without a removal or an `overwrite` the value only goes up;
- `Spends`: without a `create` or an `overwrite`, versions are paid for by the room above the value.
-/

/-- A value, if any, and its version. -/
structure Register (F : Type*) where
  value : Option F
  version : Nat

namespace Register

variable {F : Type*} {r s r' : Register F} {f : F}

inductive Write where
  | keep | create | raise | remove | overwrite
  deriving DecidableEq

/-- What a write does. Only an `overwrite` may lower a value. -/
inductive Move [LT F] : Register F → Write → Register F → Prop
  | keep (r : Register F) : Move r .keep r
  | create (f : F) (n : Nat) : Move ⟨none, n⟩ .create ⟨some f, n + 1⟩
  | raise {f f' : F} (n : Nat) (h : f < f') : Move ⟨some f, n⟩ .raise ⟨some f', n + 1⟩
  | remove (f : F) (n : Nat) : Move ⟨some f, n⟩ .remove ⟨none, n⟩
  | overwrite (f f' : F) (n : Nat) : Move ⟨some f, n⟩ .overwrite ⟨some f', n + 1⟩

/-! ## Freshness -/

/-- The version has not gone back, and where it is the same the value is the same or gone. -/
structure Fresh (r r' : Register F) : Prop where
  version : r.version ≤ r'.version
  value : r'.version = r.version → r'.value = r.value ∨ r'.value = none

namespace Fresh

protected theorem refl (r : Register F) : Fresh r r :=
  ⟨le_rfl, fun _ => .inl rfl⟩

protected theorem trans (hrs : Fresh r s) (hsr' : Fresh s r') : Fresh r r' := by
  refine ⟨hrs.version.trans hsr'.version, fun heq => ?_⟩
  have hle := hrs.version
  have hle' := hsr'.version
  rcases hsr'.value (by omega) with h | h
  · rw [h]
    exact hrs.value (by omega)
  · exact .inr h

/-- A value that was not there has a new version. -/
theorem lt (h : Fresh r r') (hvalue : r'.value = some f) (hne : r.value ≠ some f) :
    r.version < r'.version := by
  refine lt_of_le_of_ne h.version fun heq => ?_
  rcases h.value heq.symm with hsame | hnone
  · exact hne (hsame ▸ hvalue)
  · rw [hnone] at hvalue
    cases hvalue

/-- **No return.** When the version is the same at both ends and there is a value at the end, the
register was the same all along. -/
theorem between (hrs : Fresh r s) (hsr' : Fresh s r') (hversion : r'.version = r.version)
    (hvalue : r'.value = some f) : s = r' := by
  have hle := hrs.version
  have hle' := hsr'.version
  have hs : s.version = r'.version := by omega
  rcases hsr'.value hs.symm with hsame | hnone
  · cases s
    cases r'
    simp_all
  · rw [hnone] at hvalue
    cases hvalue

end Fresh

theorem Move.fresh [LT F] {w : Write} (h : Move r w r') : Fresh r r' := by
  cases h with
  | keep => exact .refl r
  | create f n => exact ⟨Nat.le_succ n, fun heq => absurd heq (Nat.succ_ne_self n)⟩
  | raise n _ => exact ⟨Nat.le_succ n, fun heq => absurd heq (Nat.succ_ne_self n)⟩
  | remove f n => exact ⟨le_rfl, fun _ => .inr rfl⟩
  | overwrite f f' n => exact ⟨Nat.le_succ n, fun heq => absurd heq (Nat.succ_ne_self n)⟩

/-! ## Growth -/

/-- A value stays, as it was or higher. -/
def Grows [LE F] (r r' : Register F) : Prop :=
  ∀ f, r.value = some f → ∃ f', r'.value = some f' ∧ f ≤ f'

section Preorder

variable [Preorder F]

theorem Grows.refl (r : Register F) : Grows r r :=
  fun f hf => ⟨f, hf, le_rfl⟩

theorem Grows.trans (hrs : Grows r s) (hsr' : Grows s r') : Grows r r' := by
  intro f hf
  obtain ⟨f', hf', hle⟩ := hrs f hf
  obtain ⟨f'', hf'', hle'⟩ := hsr' f' hf'
  exact ⟨f'', hf'', hle.trans hle'⟩

theorem Move.grows {w : Write} (h : Move r w r') (hoverwrite : w ≠ .overwrite)
    (hvalue : r'.value ≠ none) : Grows r r' := by
  cases h with
  | keep => exact .refl r
  | create f n =>
    intro g hg
    cases hg
  | raise n hlt =>
    intro g hg
    obtain rfl := Option.some.inj hg
    exact ⟨_, rfl, hlt.le⟩
  | remove f n => exact absurd rfl hvalue
  | overwrite f f' n => exact absurd rfl hoverwrite

/-! ## Room -/

/-- The room above the value; none is left where there is no value. -/
def room (height : F → Nat) (r : Register F) : Nat := r.value.elim 0 height

/-- Versions are paid for out of the room. -/
def Spends (height : F → Nat) (r r' : Register F) : Prop :=
  r'.version + r'.room height ≤ r.version + r.room height

omit [Preorder F] in
theorem Spends.trans {height : F → Nat} (hrs : Spends height r s) (hsr' : Spends height s r') :
    Spends height r r' :=
  Nat.le_trans hsr' hrs

theorem Move.spends {height : F → Nat} (hheight : StrictAnti height) {w : Write}
    (h : Move r w r') (hcreate : w ≠ .create) (hoverwrite : w ≠ .overwrite) :
    Spends height r r' := by
  cases h with
  | keep => exact le_rfl
  | create f n => exact absurd rfl hcreate
  | @raise f f' n hlt =>
    have hless := hheight hlt
    change n + 1 + height f' ≤ n + height f
    omega
  | remove f n => exact Nat.le_add_right n _
  | overwrite f f' n => exact absurd rfl hoverwrite

end Preorder

end Register
