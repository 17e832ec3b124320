import Mathlib.Data.List.Chain
import Mathlib.Logic.Relation

/-!
# Graphs of bounded depth

A graph given by successor lists, some of whose vertices are nodes.

* `Bounded`: every walk from a vertex stays on nodes, repeats none of a stack, and ends within a
  number of levels. Such a vertex is on no cycle (`Bounded.acyclic`) and its chains are short
  (`Bounded.chain_length`); only the successors of what it reaches matter (`Bounded.congr`).
* `search`: depth-first search with the current path as visited set. It finds every target that
  can be reached (`search_complete`).
-/

namespace Dag

variable {α : Type} {node : α → Prop} {succ : α → List α}

/-- There is an edge from `x` to `y`. -/
abbrev Edge (succ : α → List α) (x y : α) : Prop := y ∈ succ x

/-- Walks from the vertex end within `n` levels, on nodes, without repeating a vertex. -/
def Bounded (node : α → Prop) (succ : α → List α) : Nat → List α → α → Prop
  | 0, _, _ => False
  | n + 1, stack, x => x ∉ stack ∧ node x ∧ ∀ y ∈ succ x, Bounded node succ n (x :: stack) y

namespace Bounded

variable {n m : Nat} {stack : List α} {x y : α}

/-- What a bounded vertex reaches is a node off the stack. -/
theorem reach (h : Bounded node succ n stack x) (hr : Relation.ReflTransGen (Edge succ) x y) :
    y ∉ stack ∧ node y := by
  induction n generalizing stack x with
  | zero => exact h.elim
  | succ n ih =>
    rcases Relation.ReflTransGen.cases_head hr with rfl | ⟨z, hz, hr⟩
    · exact ⟨h.1, h.2.1⟩
    · obtain ⟨hy, hnode⟩ := ih (h.2.2 z hz) hr
      exact ⟨fun hmem => hy (List.mem_cons_of_mem _ hmem), hnode⟩

theorem acyclic (h : Bounded node succ n stack x) : ¬ Relation.TransGen (Edge succ) x x := by
  intro hc
  cases n with
  | zero => exact h.elim
  | succ n =>
    obtain ⟨z, hz, hr⟩ := Relation.TransGen.head'_iff.mp hc
    exact ((h.2.2 z hz).reach hr).1 List.mem_cons_self

theorem chain_length (h : Bounded node succ n stack x) {l : List α}
    (hl : List.IsChain (Edge succ) (x :: l)) : l.length < n := by
  induction l generalizing n stack x with
  | nil =>
    cases n with
    | zero => exact h.elim
    | succ n => exact Nat.succ_pos n
  | cons z l ih =>
    cases n with
    | zero => exact h.elim
    | succ n =>
      obtain ⟨hz, hl⟩ := List.isChain_cons_cons.mp hl
      exact Nat.succ_lt_succ (ih (h.2.2 z hz) hl)

/-- Only what the vertex reaches matters. -/
theorem congr {node' : α → Prop} {succ' : α → List α} (h : Bounded node succ n stack x)
    (heq : ∀ y, Relation.ReflTransGen (Edge succ) x y → (node y → node' y) ∧ succ' y = succ y) :
    Bounded node' succ' n stack x := by
  induction n generalizing stack x with
  | zero => exact h.elim
  | succ n ih =>
    obtain ⟨hnode, hsucc⟩ := heq x .refl
    refine ⟨h.1, hnode h.2.1, fun y hy => ?_⟩
    rw [hsucc] at hy
    exact ih (h.2.2 y hy) fun z hz => heq z (.head hy hz)

end Bounded

/-! ## Search -/

variable {target root x : α} {path : List α}

/-- There is a walk from `x` to the target whose earlier vertices avoid `path`. -/
inductive Avoiding (succ : α → List α) (target : α) (path : List α) : α → Prop
  | last {x : α} : x ∉ path → Edge succ x target → Avoiding succ target path x
  | step {x y : α} : x ∉ path → Edge succ x y → Avoiding succ target path y →
      Avoiding succ target path x

theorem Avoiding.not_mem (h : Avoiding succ target path x) : x ∉ path := by
  cases h with
  | last hx _ => exact hx
  | step hx _ _ => exact hx

theorem Avoiding.of_transGen (h : Relation.TransGen (Edge succ) x target) :
    Avoiding succ target [] x := by
  induction h using Relation.TransGen.head_induction_on with
  | single h => exact .last List.not_mem_nil h
  | head h _ ih => exact .step List.not_mem_nil h ih

/-- A walk can be cut at its last visit of `root`. -/
theorem Avoiding.cut (h : Avoiding succ target path x) (root : α) :
    Avoiding succ target (root :: path) x ∨
      ∃ y, Edge succ root y ∧ (y = target ∨ Avoiding succ target (root :: path) y) := by
  induction h with
  | @last x hx hedge =>
    by_cases heq : x = root
    · subst heq
      exact .inr ⟨target, hedge, .inl rfl⟩
    · exact .inl (.last (by simp [heq, hx]) hedge)
  | @step x y hx hedge _ ih =>
    rcases ih with h | h
    · by_cases heq : x = root
      · subst heq
        exact .inr ⟨y, hedge, .inr h⟩
      · exact .inl (.step (by simp [heq, hx]) hedge h)
    · exact .inr h

section Search

variable [DecidableEq α]

/-- Looks for `target` along walks from `root` that do not revisit their own path. -/
def search (succ : α → List α) (target : α) : Nat → List α → α → Bool
  | 0, _, _ => false
  | fuel + 1, path, root =>
    if root ∈ path then false
    else (succ root).any fun x => decide (x = target) || search succ target fuel (root :: path) x

/-- A path of distinct nodes is no longer than there are nodes, so the fuel suffices. -/
theorem search_avoiding {nodes : List α} (hnodes : ∀ x y, Edge succ x y → x ∈ nodes) (fuel : Nat)
    (hfuel : nodes.length < fuel + path.length) (hnodup : path.Nodup) (hsub : path ⊆ nodes)
    (h : Avoiding succ target path root) : search succ target fuel path root = true := by
  induction fuel generalizing path root with
  | zero =>
    have hle := List.Nodup.length_le_of_subset hnodup hsub
    omega
  | succ fuel ih =>
    have hroot := h.not_mem
    have hnext : ∃ y, Edge succ root y ∧ (y = target ∨ Avoiding succ target (root :: path) y) := by
      rcases h.cut root with hself | hnext
      · exact absurd List.mem_cons_self hself.not_mem
      · exact hnext
    obtain ⟨y, hedge, hy⟩ := hnext
    simp only [search, if_neg hroot, List.any_eq_true, Bool.or_eq_true, decide_eq_true_eq]
    refine ⟨y, hedge, ?_⟩
    rcases hy with rfl | hy
    · exact .inl rfl
    · refine .inr (ih ?_ (List.nodup_cons.mpr ⟨hroot, hnodup⟩) ?_ hy)
      · rw [List.length_cons]
        omega
      · exact List.cons_subset.mpr ⟨hnodes root y hedge, hsub⟩

/-- **Completeness.** With more fuel than nodes, the search finds every target it can reach. -/
theorem search_complete {nodes : List α} (hnodes : ∀ x y, Edge succ x y → x ∈ nodes)
    (h : Relation.TransGen (Edge succ) root target) :
    search succ target (nodes.length + 1) [] root = true :=
  search_avoiding hnodes _ (Nat.lt_succ_self _) List.nodup_nil (List.nil_subset _) (.of_transGen h)

end Search

end Dag
