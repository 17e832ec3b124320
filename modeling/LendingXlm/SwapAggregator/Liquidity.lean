import LendingXlm.SwapAggregator.Hops

/-!
# Liquidity legs

A burn and a mint keep `Solid base 0`: what leaves the vault is at least what the pool may have
taken, and what enters it is at most what the balances have grown by.

* `Crediting`, `Debiting`: the state of a leg whose remaining constituents are not booked yet;
* `removeLiquidity_keeps`, `addLiquidity_keeps`: the legs.

The constituents of a pool are distinct (`poolTokens_spec`), so each is booked once.
-/

namespace Lending.SwapAggregator

open Fallible Transaction

variable {router : Address} {venues : Venues router} {base : Storage} {extra : Address → Int}
  {token : Address} {amount : Int}

/-! ## Constituents -/

theorem toU128_mapM {α : Type} {f : α → Int} {l : List α} {held : List Int}
    (h : l.mapM (fun a => toU128 (f a)) = .ok held) : held = l.map f := by
  induction l generalizing held with
  | nil =>
    rw [List.mapM_nil, Fallible.pure_ok_iff] at h
    exact h.symm
  | cons a l ih =>
    rw [List.mapM_cons] at h
    obtain ⟨x, hx, h⟩ := Fallible.bind_ok h
    obtain ⟨xs, hxs, h⟩ := Fallible.bind_ok h
    obtain ⟨_, -, hx⟩ := Fallible.bind_ok hx
    rw [Fallible.pure_ok_iff] at h hx
    rw [← h, ← hx, ih hxs, List.map_cons]

theorem mapM_avoids {ε α β : Type} {e : ε} {f : α → Except ε β} (hf : ∀ a, Avoids e (f a))
    {l : List α} : Avoids e (l.mapM f) := by
  induction l with
  | nil => exact .pure
  | cons a l ih =>
    rw [List.mapM_cons]
    exact .bind (hf a) fun _ _ => .bind ih fun _ _ => .pure

theorem zip_fst_nodup {α β : Type} {l : List α} (h : l.Nodup) (l' : List β) :
    ((l.zip l').map Prod.fst).Nodup := by
  induction l generalizing l' with
  | nil => exact List.nodup_nil
  | cons a l ih =>
    cases l' with
    | nil => exact List.nodup_nil
    | cons b l' =>
      obtain ⟨ha, hl⟩ := List.nodup_cons.mp h
      refine List.nodup_cons.mpr ⟨fun hmem => ?_, ih hl l'⟩
      obtain ⟨⟨x, y⟩, hxy, rfl⟩ := List.mem_map.mp hmem
      exact ha (List.of_mem_zip hxy).1

theorem mem_zip_map {α β : Type} {f : α → β} {l : List α} {c : α × β}
    (h : c ∈ l.zip (l.map f)) : c.2 = f c.1 := by
  rw [← List.map_prod_left_eq_zip] at h
  obtain ⟨a, -, rfl⟩ := List.mem_map.mp h
  rfl

theorem mem_zip_map_zip {α β γ : Type} {f : α → β} {l : List α} {l' : List γ} {c : α × β × γ}
    (h : c ∈ l.zip ((l.map f).zip l')) : c.2.1 = f c.1 := by
  induction l generalizing l' with
  | nil => cases h
  | cons a l ih =>
    cases l' with
    | nil => cases h
    | cons b l' =>
      rcases List.mem_cons.mp h with rfl | h
      · rfl
      · exact ih h

/-! ## Burning -/

theorem solid_read {s s' : Run} (h : Solid router base extra s) (hs : Spent router 0 s s') :
    Solid router base extra s' :=
  h.spend hs fun _ => (add_zero _).le

theorem assertShareToken_spec {pool lpToken : Address} :
    Spec (Solid router base extra) Expected (Aquarius.assertShareToken venues pool lpToken)
      fun _ => True :=
  .bind (invoke_read fun _ _ => solid_read) fun _ _ => lift_spec (.require nofun)

theorem getTokens_spec {pool : Address} :
    Spec (Solid router base extra) Expected (Aquarius.getTokens venues pool) fun _ => True :=
  invoke_read fun _ _ => solid_read

/-- What remains of a burn: the constituents to be credited, each with the balance it had. -/
structure Crediting (router : Address) (base : Storage) (rest : List (Address × Int × Int))
    (s : Run) : Prop where
  solid : Solid router base 0 s
  nodup : (rest.map Prod.fst).Nodup
  before : ∀ c ∈ rest, s.store.reservedFeeBalance c.1 + s.vault.balanceOf c.1 ≤ c.2.1

theorem creditConstituent_keeps {total : Int} {c : Address × Int × Int}
    {rest : List (Address × Int × Int)} :
    Ends (Crediting router base (c :: rest)) Expected
      (Aquarius.creditConstituent router total c) fun _ =>
        Crediting router base rest := by
  obtain ⟨token, before, floor⟩ := c
  refine .start fun s hs => ?_
  refine .bind balance_ends fun after => .bind (.orThrow fun _ => nofun) fun received => ?_
  refine .bind (.require fun _ => nofun) fun _ => ?_
  refine .bind (.lift (fun _ _ s hs => hs) (expected_of_avoids avoids_checkedAdd)) fun total => ?_
  refine .start fun s₁ hs₁ => ?_
  obtain ⟨⟨⟨rfl, rfl⟩, hreceived⟩, -⟩ := hs₁
  obtain ⟨-, rfl⟩ := I128.checkedSub_some.mp hreceived
  refine .bind vaultDeposit_ends fun _ => .pure ?_
  rintro s' ⟨hnonneg, hb⟩
  obtain ⟨hnot, hnodup⟩ := List.nodup_cons.mp hs.nodup
  have hbefore := hs.before _ List.mem_cons_self
  dsimp only at hbefore
  refine ⟨⟨hb.store ▸ hs.solid.balanced, hb.store ▸ hs.solid.grown, fun t => ?_, fun t => ?_, ?_⟩,
    hnodup, fun c hc => ?_⟩
  · have hcovered := hs.solid.covered t
    rw [hb.store, hb.ledger, hb.vault]
    by_cases ht : t = token
    · subst ht
      rw [single_self, Pi.zero_apply]
      omega
    · rw [single_ne _ ht, add_zero]
      exact hcovered
  · have hvault := hs.solid.vault t
    rw [hb.vault]
    unfold single
    split <;> omega
  · unfold CacheNodup
    rw [hb.cache]
    exact hs.solid.cache
  · have hne : c.1 ≠ token := by
      intro heq
      exact hnot (List.mem_map.mpr ⟨c, hc, heq⟩)
    rw [hb.store, hb.vault, single_ne _ hne, add_zero]
    exact hs.before c (List.mem_cons_of_mem _ hc)

theorem creditConstituents_keeps {l : List (Address × Int × Int)} :
    Ends (Crediting router base l) Expected
      (l.foldlM (Aquarius.creditConstituent router) 0) fun _ =>
        Solid router base 0 := by
  refine Ends.post (Ends.foldlM (P := fun _ => Crediting router base) ?_ 0) fun _ _ hs => hs.solid
  exact fun _ _ _ _ => creditConstituent_keeps

/-- After the burn, the constituents are to be credited. -/
theorem burned_crediting {s s₁ s' : Run} {lpToken : Address} {shares : Int}
    {rest : List (Address × Int × Int)} (hs : Solid router base 0 s)
    (hspent : Spent router (granted [⟨lpToken, shares⟩]) s s₁)
    (hb : Booked lpToken (-shares) s₁ s') (hvault : shares ≤ s₁.vault.balanceOf lpToken)
    (hnonneg : 0 ≤ shares) (hnodup : (rest.map Prod.fst).Nodup)
    (hrest : ∀ c ∈ rest, c.2.1 = s.ledger.balance c.1 router) :
    Crediting router base rest s' := by
  have hgranted : ∀ t, granted [⟨lpToken, shares⟩] t = single lpToken shares t := by
    intro t
    unfold granted single
    simp [eq_comm]
  have hshrunk : ∀ t, s'.vault.balanceOf t ≤ s.vault.balanceOf t := by
    intro t
    rw [hb.vault, hspent.vault]
    unfold single
    split <;> omega
  refine ⟨⟨?_, ?_, fun t => ?_, fun t => ?_, ?_⟩, hnodup, fun c hc => ?_⟩
  · rw [hb.store, hspent.store]
    exact hs.balanced
  · rw [hb.store, hspent.store]
    exact hs.grown
  · have hcovered := hs.covered t
    have hledger := hspent.ledger t
    rw [hgranted] at hledger
    rw [hb.store, hspent.store, hb.ledger, hb.vault, hspent.vault, single_neg]
    omega
  · have hpos := hs.vault t
    rw [hspent.vault] at hvault
    rw [hb.vault, hspent.vault]
    by_cases ht : t = lpToken
    · subst ht
      rw [single_self]
      omega
    · rw [single_ne _ ht, add_zero]
      exact hpos
  · unfold CacheNodup
    rw [hb.cache, hspent.cache]
    exact hs.cache
  · have hcovered := hs.covered c.1
    have hvault' := hshrunk c.1
    rw [Pi.zero_apply] at hcovered
    rw [hrest c hc, hb.store, hspent.store]
    omega

/-- A burn credits what it was measured to pay and debits the shares it took. -/
theorem removeLiquidity_keeps {pool lpToken : Address} {amounts : List Int} {minStart : Nat} :
    Ends (Solid router base 0) Expected
      (Aquarius.removeLiquidity venues pool lpToken amounts minStart) fun _ =>
        Solid router base 0 := by
  refine .bind (poolTokens_spec Solid.cacheable getTokens_spec) fun tokens => ?_
  refine .start fun s₀ hs₀ => ?_
  obtain ⟨hs₀, hnodup⟩ := hs₀
  refine .bind (Q := fun _ => Solid router base 0) ?_ fun _ => ?_
  · exact assertShareToken_spec.conseq (fun _ hs => hs ▸ hs₀) fun _ _ hs => hs.1
  refine .bind (.require fun _ => nofun) fun _ => .get_bind fun s₁ hs₁ => ?_
  dsimp only
  refine .bind (.require fun _ => nofun) fun _ => ?_
  refine .bind (.lift (fun _ _ s hs => hs) (expected_of_avoids (mapM_avoids fun _ =>
    toU128_avoids))) fun minAmounts => ?_
  refine .start fun s₂ hs₂ => ?_
  obtain ⟨rfl, hshares⟩ := hs₂
  refine .bind invoke_ends fun _ => .bind balance_ends fun sharesAfter => ?_
  refine .bind (.orThrow fun _ => nofun) fun burned => .bind (.require fun _ => nofun) fun _ => ?_
  refine .start fun s₃ hs₃ => ?_
  obtain ⟨⟨⟨hspent, -⟩, -⟩, -⟩ := hs₃
  have hvault : 0 ≤ s₃.vault.balanceOf lpToken := by
    rw [hspent.vault]
    exact hs₁.1.vault lpToken
  refine .bind (vaultWithdraw_ends hvault) fun _ => ?_
  refine .bind (creditConstituents_keeps.pre ?_) fun total =>
    (Ends.require fun _ => nofun).post fun _ _ hs => hs.1
  rintro s ⟨hnonneg, hle, hb⟩
  refine burned_crediting hs₁.1 hspent hb hle hnonneg (zip_fst_nodup hnodup _) fun c hc => ?_
  exact mem_zip_map_zip hc

/-! ## Minting -/

/-- What remains of a mint that started in `s`: the constituents to be debited. -/
structure Debiting (router : Address) (s : Run) (rest : List (Address × Int × Int)) (s' : Run) :
    Prop where
  store : s'.store = s.store
  cache : CacheNodup s'
  nodup : (rest.map Prod.fst).Nodup
  vault : ∀ t, 0 ≤ s'.vault.balanceOf t ∧ s'.vault.balanceOf t ≤ s.vault.balanceOf t
  pending : ∀ c ∈ rest, s'.vault.balanceOf c.1 = s.vault.balanceOf c.1
  ungranted : ∀ t, s.vault.balanceOf t = 0 → s.ledger.balance t router ≤ s'.ledger.balance t router
  covered : ∀ t, t ∉ rest.map Prod.fst →
    s.store.reservedFeeBalance t + s'.vault.balanceOf t ≤ s'.ledger.balance t router

theorem debitConstituent_keeps {s : Run} {c : Address × Int × Int}
    {rest : List (Address × Int × Int)} (hs : Solid router base 0 s)
    (hheld : c.2.1 = s.vault.balanceOf c.1)
    (hbefore : 0 < s.vault.balanceOf c.1 → c.2.2 = s.ledger.balance c.1 router) :
    Ends (Debiting router s (c :: rest)) Expected (Aquarius.debitConstituent router c)
      fun _ => Debiting router s rest := by
  obtain ⟨token, held, before⟩ := c
  dsimp only at hheld hbefore
  have hcovered := hs.covered token
  rw [Pi.zero_apply, add_zero] at hcovered
  refine .start fun s₁ hs₁ => ?_
  obtain ⟨hnot, hnodup⟩ := List.nodup_cons.mp hs₁.nodup
  have hpending := hs₁.pending _ List.mem_cons_self
  dsimp only at hpending
  unfold Aquarius.debitConstituent
  refine .ite (fun hzero => .pure ?_) fun hpos => ?_
  · rintro _ rfl
    refine ⟨hs₁.store, hs₁.cache, hnodup, hs₁.vault, fun c hc => hs₁.pending c (.tail _ hc),
      hs₁.ungranted, fun t ht => ?_⟩
    by_cases htoken : t = token
    · subst htoken
      have hledger := hs₁.ungranted t (hheld ▸ hzero)
      omega
    · exact hs₁.covered t (by simp [htoken, ht])
  · refine .bind balance_ends fun after => .bind (.orThrow fun _ => nofun) fun spent => ?_
    refine .bind (.require fun _ => nofun) fun _ => .start fun s₂ hs₂ => ?_
    obtain ⟨⟨⟨rfl, rfl⟩, hspent⟩, -⟩ := hs₂
    obtain ⟨-, rfl⟩ := I128.checkedSub_some.mp hspent
    refine (vaultWithdraw_ends (hs₁.vault token).1).post ?_
    rintro _ s' ⟨hnonneg, hle, hb⟩
    have hheldpos : 0 < s.vault.balanceOf token := by
      have hvault := hs.vault token
      omega
    have hother : ∀ t, t ≠ token → s'.vault.balanceOf t = s₂.vault.balanceOf t := by
      intro t ht
      rw [hb.vault, single_ne _ ht, add_zero]
    have hself : s'.vault.balanceOf token =
        s₂.vault.balanceOf token - (before - s₂.ledger.balance token router) := by
      rw [hb.vault, single_self]
      rfl
    have hbefore := hbefore hheldpos
    refine ⟨hb.store.trans hs₁.store, ?_, hnodup, fun t => ?_, fun c hc => ?_, fun t ht => ?_,
      fun t ht => ?_⟩
    · unfold CacheNodup
      rw [hb.cache]
      exact hs₁.cache
    · by_cases ht : t = token
      · subst ht
        have hvault := hs₁.vault t
        omega
      · rw [hother t ht]
        exact hs₁.vault t
    · have hne : c.1 ≠ token := by
        intro heq
        exact hnot (List.mem_map.mpr ⟨c, hc, heq⟩)
      rw [hother _ hne]
      exact hs₁.pending c (.tail _ hc)
    · rw [hb.ledger]
      exact hs₁.ungranted t ht
    · rw [hb.ledger]
      by_cases htoken : t = token
      · subst htoken
        omega
      · rw [hother t htoken]
        exact hs₁.covered t (by simp [htoken, ht])

theorem debitConstituents_keeps {s : Run} {l : List (Address × Int × Int)}
    (hs : Solid router base 0 s) (hl : ∀ c ∈ l, c.2.1 = s.vault.balanceOf c.1 ∧
      (0 < s.vault.balanceOf c.1 → c.2.2 = s.ledger.balance c.1 router)) :
    Ends (Debiting router s l) Expected (l.forM (Aquarius.debitConstituent router))
      fun _ => Debiting router s [] :=
  .forM fun c _ hc => debitConstituent_keeps hs (hl c hc).1 (hl c hc).2

/-- After the deposit, the constituents are to be debited. -/
theorem Solid.debiting {s s₁ : Run} {amounts : Address → Int} {l : List (Address × Int × Int)}
    (hs : Solid router base 0 s) (hspent : Spent router amounts s s₁)
    (hnodup : (l.map Prod.fst).Nodup)
    (hempty : ∀ t, s.vault.balanceOf t = 0 → amounts t = 0)
    (hl : ∀ t, t ∉ l.map Prod.fst → amounts t = 0) : Debiting router s l s₁ where
  store := hspent.store
  cache := by
    unfold CacheNodup
    rw [hspent.cache]
    exact hs.cache
  nodup := hnodup
  vault t := by
    rw [hspent.vault]
    exact ⟨hs.vault t, le_refl _⟩
  pending c _ := by rw [hspent.vault]
  ungranted t ht := by
    have hledger := hspent.ledger t
    rw [hempty t ht] at hledger
    omega
  covered t ht := by
    have hcovered := hs.covered t
    have hledger := hspent.ledger t
    rw [Pi.zero_apply] at hcovered
    rw [hl t ht] at hledger
    rw [hspent.vault]
    omega

/-- The measured shares go to the vault. -/
theorem Debiting.credit {s s₁ s' : Run} (h : Debiting router s [] s₁)
    (hs : Solid router base 0 s)
    (hnonneg : 0 ≤ s₁.ledger.balance token router - s.ledger.balance token router)
    (hb : Booked token (s₁.ledger.balance token router - s.ledger.balance token router) s₁ s') :
    Solid router base 0 s' where
  balanced := by
    rw [hb.store, h.store]
    exact hs.balanced
  grown := by
    rw [hb.store, h.store]
    exact hs.grown
  covered t := by
    rw [hb.store, h.store, hb.ledger, hb.vault]
    by_cases ht : t = token
    · subst ht
      have hcovered := hs.covered t
      have hvault := (h.vault t).2
      rw [Pi.zero_apply] at hcovered
      rw [single_self, Pi.zero_apply]
      omega
    · rw [single_ne _ ht, add_zero, Pi.zero_apply, add_zero]
      exact h.covered t List.not_mem_nil
  vault t := by
    have hvault := (h.vault t).1
    rw [hb.vault]
    unfold single
    split <;> omega
  cache := by
    unfold CacheNodup
    rw [hb.cache]
    exact h.cache

/-- A mint debits what it was measured to take and credits the shares it was measured to pay. -/
theorem addLiquidity_keeps {pool lpToken : Address} {minShares : Int} :
    Ends (Solid router base 0) Expected
      (Aquarius.addLiquidity venues pool lpToken minShares) fun _ => Solid router base 0 := by
  refine .bind (poolTokens_spec Solid.cacheable getTokens_spec) fun tokens => ?_
  refine .start fun s₀ hs₀ => ?_
  obtain ⟨hs₀, hnodup⟩ := hs₀
  refine .bind (Q := fun _ => Solid router base 0) ?_ fun _ => ?_
  · exact assertShareToken_spec.conseq (fun _ hs => hs ▸ hs₀) fun _ _ hs => hs.1
  refine .bind (.require fun _ => nofun) fun _ => .get_bind fun s hs => ?_
  obtain ⟨hs, hmin⟩ := hs
  refine .bind (Q := fun held s' => s' = s ∧ held = tokens.map s.vault.balanceOf)
    (.lift (fun held hheld s' hs' => ⟨hs', toU128_mapM hheld⟩)
      (expected_of_avoids (mapM_avoids fun _ => toU128_avoids))) fun held => ?_
  dsimp only
  refine .bind (.lift (fun _ _ s hs => hs)
    (expected_of_avoids (.foldlM (fun _ _ => avoids_checkedAdd) 0))) fun total => ?_
  refine .bind (.require fun _ => nofun) fun _ => .start fun s₁ hs₁ => ?_
  obtain ⟨⟨rfl, rfl⟩, -⟩ := hs₁
  refine .bind (invoke_ends.post ?_) fun _ =>
    .bind (debitConstituents_keeps hs fun c hc => ?_) fun _ => ?_
  rotate_left
  · rw [List.zip_map'] at hc
    have hpair := mem_zip_map hc
    exact ⟨congrArg Prod.fst hpair, fun hpos => (congrArg Prod.snd hpair).trans (if_pos hpos)⟩
  · refine .bind balance_ends fun sharesAfter => .bind (.orThrow fun _ => nofun) fun shares => ?_
    refine .bind (.require fun _ => nofun) fun _ => .start fun s₂ hs₂ => ?_
    obtain ⟨⟨⟨hs₂, rfl⟩, hshares⟩, hle⟩ := hs₂
    obtain ⟨-, rfl⟩ := I128.checkedSub_some.mp hshares
    refine .bind vaultDeposit_ends fun _ => .pure ?_
    rintro s' ⟨hnonneg, hb⟩
    exact hs₂.credit hs hnonneg hb
  · intro _ s₂ hspent
    have hgrant : ∀ g ∈ ((tokens.zip (tokens.map s₁.vault.balanceOf)).filter
        fun c => decide (0 < c.2)).map fun c => Grant.mk c.1 c.2,
        g.token ∈ tokens ∧ 0 < s₁.vault.balanceOf g.token := by
      intro g hg
      obtain ⟨c, hc, rfl⟩ := List.mem_map.mp hg
      obtain ⟨hc, hpos⟩ := List.mem_filter.mp hc
      rw [decide_eq_true_eq, mem_zip_map hc] at hpos
      exact ⟨(List.of_mem_zip hc).1, hpos⟩
    refine hs.debiting hspent (zip_fst_nodup hnodup _) (fun t ht => granted_ne ?_)
      fun t ht => granted_ne ?_
    · rintro g hg rfl
      exact (hgrant g hg).2.ne' ht
    · rintro g hg rfl
      refine ht ?_
      rw [List.map_fst_zip (by simp)]
      exact (hgrant g hg).1

end Lending.SwapAggregator
