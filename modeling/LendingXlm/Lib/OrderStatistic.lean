import Mathlib.Data.List.Sort

/-!
# Order statistics of a list with some bad entries

The entry at position `k` of a sorted list has at least `k + 1` entries not above it and at least
`length - k` not below it. So with at most `k` bad entries there is a good one not above it
(`exists_good_le`), and with fewer than `length - k` bad entries a good one not below it
(`exists_good_ge`).
-/

namespace OrderStatistic

variable {α β : Type} [LinearOrder α]

theorem succ_le_countP_le {l : List α} (hl : l.Pairwise (· ≤ ·)) {k : Nat} {a : α}
    (hk : l[k]? = some a) : k + 1 ≤ l.countP (· ≤ a) := by
  induction l generalizing k with
  | nil => simp at hk
  | cons x l ih =>
    obtain ⟨hhead, htail⟩ := List.pairwise_cons.mp hl
    cases k with
    | zero =>
      obtain rfl : x = a := by simpa using hk
      rw [List.countP_cons]
      simp
    | succ k =>
      have hk' : l[k]? = some a := by simpa using hk
      have hxa : x ≤ a := hhead a (List.mem_of_getElem? hk')
      have hrec := ih htail hk'
      rw [List.countP_cons_of_pos (by simpa using hxa)]
      omega

theorem le_countP_ge {l : List α} (hl : l.Pairwise (· ≤ ·)) {k : Nat} {a : α}
    (hk : l[k]? = some a) : l.length ≤ k + l.countP (a ≤ ·) := by
  induction l generalizing k with
  | nil => simp at hk
  | cons x l ih =>
    obtain ⟨hhead, htail⟩ := List.pairwise_cons.mp hl
    cases k with
    | zero =>
      obtain rfl : x = a := by simpa using hk
      have hall : (x :: l).countP (x ≤ ·) = (x :: l).length :=
        List.countP_eq_length.mpr fun y hy => by
          rcases List.mem_cons.mp hy with rfl | hy
          · simp
          · simpa using hhead y hy
      omega
    | succ k =>
      have hk' : l[k]? = some a := by simpa using hk
      have hrec := ih htail hk'
      have hmono : l.countP (a ≤ ·) ≤ (x :: l).countP (a ≤ ·) :=
        (List.sublist_cons_self x l).countP_le
      rw [List.length_cons]
      omega

/-- More entries satisfy `p` than are bad: one of them is good. -/
theorem exists_good {xs : List β} {p bad : β → Bool} (h : xs.countP bad < xs.countP p) :
    ∃ x ∈ xs, bad x = false ∧ p x = true := by
  by_contra hnone
  push Not at hnone
  refine absurd h (not_lt.mpr (List.countP_mono_left fun x hx hp => ?_))
  by_contra hbad
  exact hnone x hx (by simpa using hbad) hp

variable {xs : List β} {value : β → α} {l : List α} {bad : β → Bool} {k : Nat} {a : α}

theorem exists_good_le (hl : l.Pairwise (· ≤ ·)) (hperm : l.Perm (xs.map value))
    (hk : l[k]? = some a) (hbad : xs.countP bad ≤ k) :
    ∃ x ∈ xs, bad x = false ∧ value x ≤ a := by
  have hcount := succ_le_countP_le hl hk
  rw [hperm.countP_eq, List.countP_map] at hcount
  obtain ⟨x, hx, hgood, hle⟩ := exists_good (lt_of_lt_of_le (Nat.lt_succ_of_le hbad) hcount)
  exact ⟨x, hx, hgood, by simpa using hle⟩

theorem exists_good_ge (hl : l.Pairwise (· ≤ ·)) (hperm : l.Perm (xs.map value))
    (hk : l[k]? = some a) (hbad : xs.countP bad + k < xs.length) :
    ∃ x ∈ xs, bad x = false ∧ a ≤ value x := by
  have hcount := le_countP_ge hl hk
  rw [hperm.countP_eq, List.countP_map, hperm.length_eq, List.length_map] at hcount
  have hlt : xs.countP bad < xs.countP ((fun x => decide (a ≤ x)) ∘ value) := by omega
  obtain ⟨x, hx, hgood, hle⟩ := exists_good hlt
  exact ⟨x, hx, hgood, by simpa using hle⟩

end OrderStatistic
