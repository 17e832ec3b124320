import Mathlib.Data.List.Chain
import Mathlib.Data.List.TakeDrop
import Mathlib.Order.MinMax

/-!
# Bounded logs that thin out what comes too fast

A log of timed items. An item that arrives less than `gap` after the newest one replaces it,
others are appended, and the oldest goes when there are more than `cap`.

* `survivors`: what an unbounded log holds in the end, as a function of the items alone: those
  that the next item did not come too close to.
* `record_survivors`: the bounded log holds the last `cap` of them.
* `survivors_spaced`, `length_survivors`: how far apart they are, and how many.
-/

namespace SparseLog

variable {α : Type*}

/-- The last `n` items. -/
def lastN (n : Nat) (l : List α) : List α := l.drop (l.length - n)

section Log

variable (time : α → Nat) (gap : Nat)

def record (cap : Nat) (log : List α) (x : α) : List α :=
  match log.getLast? with
  | none => [x]
  | some last =>
    if time x < time last + gap then log.dropLast ++ [x]
    else if cap ≤ log.length then log.tail ++ [x]
    else log ++ [x]

/-- The items that the next one did not replace. -/
def survivors : List α → List α
  | [] => []
  | [x] => [x]
  | x :: y :: l => if time y < time x + gap then survivors (y :: l) else x :: survivors (y :: l)

/-- How often an item came at least `gap` after the one before it. -/
def pauses (items : List α) : Nat :=
  (items.zip items.tail).countP fun p => decide (time p.1 + gap ≤ time p.2)

end Log

variable {time : α → Nat} {gap cap : Nat} {items l : List α} {x y : α}

/-! ## The last items -/

theorem length_lastN (n : Nat) (l : List α) : (lastN n l).length = min n l.length := by
  rw [lastN, List.length_drop]
  omega

theorem getLast?_lastN {n : Nat} (hn : 0 < n) (l : List α) : (lastN n l).getLast? = l.getLast? := by
  unfold lastN
  rw [List.getLast?_drop]
  split
  · rename_i h
    have : l = [] := List.length_eq_zero_iff.mp (by omega)
    simp [this]
  · rfl

theorem lastN_snoc {n : Nat} (hn : 0 < n) (l : List α) (x : α) :
    lastN n (l ++ [x]) = (if n ≤ l.length then (lastN n l).tail else lastN n l) ++ [x] := by
  unfold lastN
  rw [List.length_append, List.length_singleton, List.drop_append_of_le_length (by omega)]
  split
  · rename_i h
    rw [List.tail_drop]
    congr 2
    omega
  · rename_i h
    congr 2
    omega

theorem lastN_replace {n : Nat} (hn : 0 < n) (hl : l ≠ []) (x : α) :
    lastN n (l.dropLast ++ [x]) = (lastN n l).dropLast ++ [x] := by
  have hpos := List.length_pos_of_ne_nil hl
  unfold lastN
  rw [List.length_append, List.length_dropLast, List.length_singleton,
    List.drop_append_of_le_length (by rw [List.length_dropLast]; omega),
    List.dropLast_drop_eq_drop_dropLast]
  congr 2
  omega

/-! ## Survivors -/

theorem survivors_subset : survivors time gap items ⊆ items := by
  induction items with
  | nil => exact List.Subset.refl _
  | cons x l ih =>
    cases l with
    | nil => exact List.Subset.refl _
    | cons y l =>
      rw [survivors]
      split
      · exact fun z hz => List.mem_cons_of_mem x (ih hz)
      · exact List.cons_subset_cons x ih

/-- The newest item is in the log. -/
theorem getLast?_survivors : (survivors time gap items).getLast? = items.getLast? := by
  induction items with
  | nil => rfl
  | cons x l ih =>
    cases l with
    | nil => rfl
    | cons y l =>
      rw [survivors, List.getLast?_cons_cons, ← ih]
      split
      · rfl
      · have hne : survivors time gap (y :: l) ≠ [] := by
          intro h
          rw [h] at ih
          exact List.cons_ne_nil y l (List.getLast?_eq_none_iff.mp ih.symm)
        obtain ⟨z, m, hm⟩ := List.exists_cons_of_ne_nil hne
        rw [hm, List.getLast?_cons_cons]

theorem survivors_ne_nil (hne : items ≠ []) : survivors time gap items ≠ [] := by
  intro h
  have hlast : (survivors time gap items).getLast? = items.getLast? := getLast?_survivors
  rw [h] at hlast
  exact hne (List.getLast?_eq_none_iff.mp hlast.symm)

/-- One more item replaces the newest survivor, or joins them. -/
theorem survivors_snoc (items : List α) (x : α) :
    survivors time gap (items ++ [x]) =
      match items.getLast? with
      | none => [x]
      | some last =>
        if time x < time last + gap then (survivors time gap items).dropLast ++ [x]
        else survivors time gap items ++ [x] := by
  induction items with
  | nil => rfl
  | cons y l ih =>
    cases l with
    | nil =>
      change survivors time gap [y, x] = _
      rw [survivors]
      rfl
    | cons z l =>
      rw [List.cons_append, List.cons_append, survivors, ← List.cons_append, ih,
        List.getLast?_cons_cons]
      have hne : survivors time gap (z :: l) ≠ [] := survivors_ne_nil (List.cons_ne_nil z l)
      rw [List.getLast?_eq_some_getLast (List.cons_ne_nil z l)]
      dsimp only
      rw [survivors]
      by_cases hz : time z < time y + gap
      · rw [if_pos hz, if_pos hz]
      · rw [if_neg hz, if_neg hz, List.dropLast_cons_of_ne_nil hne]
        split <;> rfl

/-- **The log.** It holds the last `cap` survivors of what was recorded. -/
theorem record_survivors (hcap : 0 < cap) (items : List α) (x : α) :
    record time gap cap (lastN cap (survivors time gap items)) x =
      lastN cap (survivors time gap (items ++ [x])) := by
  unfold record
  rw [getLast?_lastN hcap, getLast?_survivors, survivors_snoc]
  cases hlast : items.getLast? with
  | none =>
    dsimp only
    unfold lastN
    rw [List.length_singleton, Nat.sub_eq_zero_of_le hcap, List.drop_zero]
  | some last =>
    have hne : survivors time gap items ≠ [] := by
      refine survivors_ne_nil fun h => ?_
      rw [h] at hlast
      cases hlast
    dsimp only
    split
    · rw [lastN_replace hcap hne]
    · rw [lastN_snoc hcap, length_lastN]
      simp only [Nat.le_min, Nat.le_refl, true_and]
      split <;> rfl

/-! ## Spacing and number -/

/-- Items in the order of their times leave survivors at least `gap` apart. -/
theorem survivors_spaced (hsorted : items.Pairwise fun a b => time a ≤ time b) :
    (survivors time gap items).Pairwise fun a b => time a + gap ≤ time b := by
  induction items with
  | nil => exact List.Pairwise.nil
  | cons x l ih =>
    have hl := ih hsorted.of_cons
    cases l with
    | nil => exact List.pairwise_singleton _ _
    | cons y l =>
      rw [survivors]
      split
      · exact hl
      · rename_i hgap
        refine List.pairwise_cons.mpr ⟨fun z hz => ?_, hl⟩
        -- What survives of the rest is no earlier than its first item.
        have hyz : time y ≤ time z := by
          rcases List.mem_cons.mp (survivors_subset hz) with rfl | hz
          · exact le_refl _
          · exact List.rel_of_pairwise_cons hsorted.of_cons hz
        omega

/-- One survivor for each pause, and the newest item. -/
theorem length_survivors (hne : items ≠ []) :
    (survivors time gap items).length = 1 + pauses time gap items := by
  induction items with
  | nil => exact absurd rfl hne
  | cons x l ih =>
    cases l with
    | nil => rfl
    | cons y l =>
      have h := ih (List.cons_ne_nil y l)
      unfold pauses at h ⊢
      rw [survivors, List.tail_cons, List.zip_cons_cons, List.countP_cons]
      by_cases hgap : time y < time x + gap
      · rw [if_pos hgap, h]
        simp [hgap]
      · rw [if_neg hgap, List.length_cons, h]
        simp [not_lt.mp hgap]
        omega

/-- Items that always pause, and for `width` at most, span `width` for each pause. -/
theorem span_le_pauses {width : Nat} {first last : α}
    (hsteady : items.IsChain fun a b => time a + gap ≤ time b ∧ time b ≤ time a + width)
    (hfirst : items.head? = some first) (hlast : items.getLast? = some last) :
    time last ≤ time first + pauses time gap items * width := by
  induction items generalizing first with
  | nil => cases hfirst
  | cons x l ih =>
    obtain rfl := Option.some.inj hfirst
    cases l with
    | nil =>
      obtain rfl := Option.some.inj hlast
      exact Nat.le_add_right _ _
    | cons y l =>
      rw [List.getLast?_cons_cons] at hlast
      obtain ⟨⟨hpause, hwidth⟩, htail⟩ := List.isChain_cons_cons.mp hsteady
      have h := ih htail rfl hlast
      unfold pauses at h ⊢
      rw [List.tail_cons] at h
      rw [List.tail_cons, List.zip_cons_cons, List.countP_cons, if_pos (by simpa using hpause),
        Nat.add_mul, Nat.one_mul]
      omega

end SparseLog
