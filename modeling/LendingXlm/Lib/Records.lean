import Mathlib.Data.List.GetD
import Mathlib.Tactic.Ring

/-!
# Packed records

Records of one width written one after the other: symbol `j` of record `i` stands at `w * i + j`.

* `getD_pack`: reading a symbol of a packed list;
* `length_pack`: the length of a packed list;
* `ext_getD`: two lists of one length that read alike are equal.
-/

namespace Lending.Records

variable {α β : Type} {w : Nat} {f : α → List β} {l : List α} {rest : List β} {d : β}

/-- The records of `l` one after the other. -/
def pack (f : α → List β) (l : List α) : List β := l.flatMap f

@[simp] theorem pack_nil : pack f [] = [] := rfl

@[simp] theorem pack_cons {a : α} : pack f (a :: l) = f a ++ pack f l := rfl

theorem length_pack (hw : ∀ a, (f a).length = w) : (pack f l).length = w * l.length := by
  induction l with
  | nil => rfl
  | cons a l ih =>
    rw [pack_cons, List.length_append, hw, ih, List.length_cons]
    ring

theorem getD_append_add {l₁ l₂ : List β} {k : Nat} :
    (l₁ ++ l₂).getD (l₁.length + k) d = l₂.getD k d := by
  rw [List.getD_append_right _ _ _ _ (Nat.le_add_right _ k), Nat.add_sub_cancel_left]

/-- Symbol `j` of record `i`, whatever follows the records. -/
theorem getD_pack (hw : ∀ a, (f a).length = w) {i j : Nat} {a : α} (hi : l[i]? = some a)
    (hj : j < w) : (pack f l ++ rest).getD (w * i + j) d = (f a).getD j d := by
  induction l generalizing i with
  | nil => cases hi
  | cons b l ih =>
    rw [pack_cons, List.append_assoc]
    cases i with
    | zero =>
      rw [List.getElem?_cons_zero, Option.some.injEq] at hi
      subst hi
      rw [Nat.mul_zero, Nat.zero_add, List.getD_append _ _ _ _ (by rw [hw]; exact hj)]
    | succ i =>
      rw [List.getElem?_cons_succ] at hi
      rw [show w * (i + 1) + j = (f b).length + (w * i + j) by rw [hw]; ring, getD_append_add]
      exact ih hi

/-- Lists of one length that read alike are equal. -/
theorem ext_getD {l₁ l₂ : List β} (hlen : l₁.length = l₂.length)
    (h : ∀ k < l₁.length, l₁.getD k d = l₂.getD k d) : l₁ = l₂ := by
  refine List.ext_getElem hlen fun k h₁ h₂ => ?_
  have hk := h k h₁
  rwa [List.getD_eq_getElem _ _ h₁, List.getD_eq_getElem _ _ h₂] at hk

end Lending.Records
