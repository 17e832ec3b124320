import LendingXlm.SwapAggregator.Buckets

/-!
# Steps of a running program

`Solid base extra`: the storage is balanced, no fee bucket is below what it was in `base`, and the
router's balance of each token covers its reserve, what the vault of the running call holds of it,
and `extra`, which the router has taken out of the vault and not passed on yet.

* `Spent`, `Booked`: what a transfer or a call into a venue, and what the vault, may change;
* `venueSwap_spec`: a hop spends nothing but its input token, at any venue;
* `dispatchHop_keeps`: it turns the input outside the vault into the output outside the vault.
-/

namespace Lending.SwapAggregator

open Fallible Transaction

variable {router : Address} {venues : Venues router} {base : Storage}
  {extra extra' : Address → Int} {s s' : Run} {token : Address} {amount : Int}

theorem single_neg (token : Address) (amount : Int) (t : Address) :
    single token (-amount) t = -single token amount t := by
  unfold single
  split <;> simp

theorem expected_of_avoids {α : Type} {x : Except RouterError α}
    (h : Avoids RouterError.internalInvariant x) : ∀ e, x = .error e → Expected e :=
  fun _ he heq => h (heq ▸ he)

/-- No token occurs twice among the cached constituents of a pool. -/
def CacheNodup (s : Run) : Prop :=
  ∀ pool tokens, s.tokensCache.get? pool = some tokens → tokens.Nodup

structure Solid (router : Address) (base : Storage) (extra : Address → Int) (s : Run) : Prop where
  balanced : s.store.Balanced
  grown : ∀ key, base.feeBalance key ≤ s.store.feeBalance key
  covered : ∀ t, s.store.reservedFeeBalance t + s.vault.balanceOf t + extra t ≤
    s.ledger.balance t router
  vault : ∀ t, 0 ≤ s.vault.balanceOf t
  cache : CacheNodup s

/-! ## Elementary steps -/

/-- `s'` differs from `s` in the ledger only, and the router spent at most `amounts`. -/
structure Spent (router : Address) (amounts : Address → Int) (s s' : Run) : Prop where
  store : s'.store = s.store
  vault : s'.vault = s.vault
  cache : s'.tokensCache = s.tokensCache
  ledger : ∀ t, s.ledger.balance t router - amounts t ≤ s'.ledger.balance t router

/-- `s'` differs from `s` in the vault only, which holds `amount` more of `token`. -/
structure Booked (token : Address) (amount : Int) (s s' : Run) : Prop where
  store : s'.store = s.store
  ledger : s'.ledger = s.ledger
  cache : s'.tokensCache = s.tokensCache
  vault : ∀ t, s'.vault.balanceOf t = s.vault.balanceOf t + single token amount t

theorem Solid.spend {amounts : Address → Int} (h : Solid router base extra s)
    (hs : Spent router amounts s s') (hextra : ∀ t, extra' t + amounts t ≤ extra t) :
    Solid router base extra' s' where
  balanced := hs.store ▸ h.balanced
  grown := hs.store ▸ h.grown
  covered t := by
    have hc := h.covered t
    have hl := hs.ledger t
    have he := hextra t
    rw [hs.store, hs.vault]
    omega
  vault := hs.vault ▸ h.vault
  cache := by
    unfold CacheNodup
    rw [hs.cache]
    exact h.cache

theorem Solid.book (h : Solid router base extra s) (hb : Booked token amount s s')
    (hvault : 0 ≤ s.vault.balanceOf token + amount)
    (hextra : ∀ t, extra' t + single token amount t = extra t) : Solid router base extra' s' where
  balanced := hb.store ▸ h.balanced
  grown := hb.store ▸ h.grown
  covered t := by
    have hc := h.covered t
    have he := hextra t
    rw [hb.store, hb.ledger, hb.vault]
    omega
  vault t := by
    rw [hb.vault]
    by_cases ht : t = token
    · rw [ht, single_self]
      exact hvault
    · rw [single_ne _ ht, add_zero]
      exact h.vault t
  cache := by
    unfold CacheNodup
    rw [hb.cache]
    exact h.cache

theorem balance_ends {P : Run → Prop} : Ends P Expected (balance router token)
    fun a s => P s ∧ a = s.ledger.balance token router :=
  fun _ hs => ⟨hs, rfl⟩

theorem invoke_ends {grants : List Grant} {call : VenueCall} :
    Ends (· = s) Expected (invoke venues grants call) fun _ s' =>
      Spent router (granted grants) s s' := by
  refine .get_bind fun s₁ hs₁ => ?_
  subst hs₁
  refine .bind (.orThrow fun _ => nofun) fun r => ?_
  refine .bind (Q := fun _ s' => Spent router (granted grants) s₁ s') ?_ fun _ =>
    .pure fun _ hs => hs
  refine .set ?_
  rintro _ ⟨rfl, hr⟩
  exact ⟨rfl, rfl, rfl, fun t => venues.takes_granted _ _ _ _ _ _ hr t⟩

theorem Ledger.transfer_balance {l l' : Ledger} {sender recipient : Address}
    (h : l.transfer token sender recipient amount = some l') (t : Address) :
    l.balance t router - single token amount t ≤ l'.balance t router := by
  unfold Ledger.transfer at h
  split at h
  · cases h
    dsimp only
    unfold single
    grind
  · cases h

theorem transfer_ends (router : Address) {sender recipient : Address} :
    Ends (· = s) Expected (transfer token sender recipient amount) fun _ s' =>
      Spent router (single token amount) s s' := by
  refine .get_bind fun s₁ hs₁ => ?_
  subst hs₁
  refine .bind (.orThrow fun _ => nofun) fun ledger => ?_
  refine .set ?_
  rintro _ ⟨rfl, hl⟩
  exact ⟨rfl, rfl, rfl, Ledger.transfer_balance hl⟩

theorem balanceOf_set {v : Vault} {credited : SortedMap Address Int} {new : Int} (t : Address) :
    Vault.balanceOf ⟨v.balances.set token new, credited⟩ t =
      v.balanceOf t + single token (new - v.balanceOf token) t := by
  unfold Vault.balanceOf
  by_cases ht : t = token
  · subst ht
    rw [SortedMap.get?_set_self, single_self, Option.getD_some]
    omega
  · rw [SortedMap.get?_set_ne _ _ ht, single_ne _ ht, add_zero]

theorem Vault.deposit_ok {v v' : Vault} (h : v.deposit token amount = .ok v') :
    0 ≤ amount ∧ ∀ t, v'.balanceOf t = v.balanceOf t + single token amount t := by
  unfold Vault.deposit at h
  by_cases hzero : amount = 0
  · rw [if_pos hzero, Fallible.pure_ok_iff] at h
    subst h
    exact ⟨hzero.ge, fun t => by rw [hzero, single_zero, add_zero]⟩
  · rw [if_neg hzero] at h
    simp only [Fallible.bind_ok_iff, require_ok_iff, orThrow_ok_iff, I128.checkedAdd_some,
      Fallible.pure_ok_iff] at h
    obtain ⟨_, hnonneg, new, ⟨_, rfl⟩, credited, _, rfl⟩ := h
    refine ⟨hnonneg, fun t => ?_⟩
    rw [balanceOf_set, add_sub_cancel_left]

theorem Vault.deposit_expected {v : Vault} :
    Avoids RouterError.internalInvariant (v.deposit token amount) := by
  unfold Vault.deposit
  split
  · exact .pure
  · exact .bind (.require (by decide)) fun _ _ => .bind (.orThrow (.inr (by decide))) fun _ _ =>
      .bind (.orThrow (.inr (by decide))) fun _ _ => .pure

theorem Vault.withdraw_ok {v v' : Vault} (hvault : 0 ≤ v.balanceOf token)
    (h : v.withdraw token amount = .ok v') : 0 ≤ amount ∧ amount ≤ v.balanceOf token ∧
      ∀ t, v'.balanceOf t = v.balanceOf t + single token (-amount) t := by
  unfold Vault.withdraw at h
  by_cases hzero : amount = 0
  · rw [if_pos hzero, Fallible.pure_ok_iff] at h
    subst h
    refine ⟨hzero.ge, hzero ▸ hvault, fun t => ?_⟩
    rw [hzero, neg_zero, single_zero, add_zero]
  · rw [if_neg hzero] at h
    simp only [Fallible.bind_ok_iff, require_ok_iff, Fallible.pure_ok_iff] at h
    obtain ⟨_, hnonneg, _, hle, rfl⟩ := h
    refine ⟨hnonneg, hle, fun t => ?_⟩
    rw [balanceOf_set, sub_sub_cancel_left]

theorem Vault.withdraw_expected {v : Vault} :
    Avoids RouterError.internalInvariant (v.withdraw token amount) := by
  unfold Vault.withdraw
  split
  · exact .pure
  · exact .bind (.require (by decide)) fun _ _ => .bind (.require (by decide)) fun _ _ => .pure

theorem vaultDeposit_ends : Ends (· = s) Expected (vaultDeposit token amount) fun _ s' =>
    0 ≤ amount ∧ Booked token amount s s' := by
  refine .get_bind fun s₁ hs₁ => ?_
  subst hs₁
  refine .bind (Q := fun v s' => s' = s₁ ∧ s₁.vault.deposit token amount = .ok v)
    (.lift (fun v hv s' hs' => ⟨hs', hv⟩) (expected_of_avoids Vault.deposit_expected)) fun v => ?_
  refine .set ?_
  rintro _ ⟨rfl, hv⟩
  exact ⟨(Vault.deposit_ok hv).1, rfl, rfl, rfl, (Vault.deposit_ok hv).2⟩

theorem vaultWithdraw_ends (hvault : 0 ≤ s.vault.balanceOf token) :
    Ends (· = s) Expected (vaultWithdraw token amount) fun _ s' =>
      0 ≤ amount ∧ amount ≤ s.vault.balanceOf token ∧ Booked token (-amount) s s' := by
  refine .get_bind fun s₁ hs₁ => ?_
  subst hs₁
  refine .bind (Q := fun v s' => s' = s₁ ∧ s₁.vault.withdraw token amount = .ok v)
    (.lift (fun v hv s' hs' => ⟨hs', hv⟩) (expected_of_avoids Vault.withdraw_expected)) fun v => ?_
  refine .set ?_
  rintro _ ⟨rfl, hv⟩
  obtain ⟨hnonneg, hle, hbalance⟩ := Vault.withdraw_ok hvault hv
  exact ⟨hnonneg, hle, rfl, rfl, rfl, hbalance⟩

/-- Depositing what is outside the vault. -/
theorem vaultDeposit_keeps : Ends (Solid router base (single token amount)) Expected
    (vaultDeposit token amount) fun _ => Solid router base 0 := by
  refine .start fun s hs => vaultDeposit_ends.post ?_
  rintro _ s' ⟨hnonneg, hb⟩
  exact hs.book hb (add_nonneg (hs.vault token) hnonneg) fun t => zero_add _

/-- What is withdrawn is outside the vault. -/
theorem vaultWithdraw_keeps : Ends (Solid router base 0) Expected (vaultWithdraw token amount)
    fun _ => Solid router base (single token amount) := by
  refine .start fun s hs => (vaultWithdraw_ends (hs.vault token)).post ?_
  rintro _ s' ⟨-, hle, hb⟩
  refine hs.book hb (by omega) fun t => ?_
  rw [single_neg, add_neg_cancel]
  rfl

/-- Paying out what is outside the vault. -/
theorem transfer_keeps {sender recipient : Address} :
    Ends (Solid router base (single token amount)) Expected
      (transfer token sender recipient amount) fun _ => Solid router base 0 :=
  .start fun _ hs => (transfer_ends router).post fun _ _ hspent =>
    hs.spend hspent fun _ => (zero_add _).le

/-! ## Hops -/

/-- What a hop may have done to the state `s` it started in: its input token may be gone. -/
structure Hopped (router token : Address) (s s' : Run) : Prop where
  store : s'.store = s.store
  vault : s'.vault = s.vault
  cache : CacheNodup s'
  ledger : ∀ t, t ≠ token → s.ledger.balance t router ≤ s'.ledger.balance t router

theorem Hopped.spend {s'' : Run} {amounts : Address → Int} (h : Hopped router token s s')
    (hs : Spent router amounts s' s'') (hamounts : ∀ t, t ≠ token → amounts t = 0) :
    Hopped router token s s'' where
  store := hs.store.trans h.store
  vault := hs.vault.trans h.vault
  cache := by
    unfold CacheNodup
    rw [hs.cache]
    exact h.cache
  ledger t ht := by
    have hl := hs.ledger t
    have hh := h.ledger t ht
    rw [hamounts t ht] at hl
    omega

/-- What the cache may be asked to do without harm. -/
structure Cacheable (I : Run → Prop) : Prop where
  nodup : ∀ s, I s → CacheNodup s
  update : ∀ s cache, I s → CacheNodup { s with tokensCache := cache } →
    I { s with tokensCache := cache }

theorem Solid.cacheable : Cacheable (Solid router base extra) where
  nodup _ h := h.cache
  update _ _ h hcache := ⟨h.balanced, h.grown, h.covered, h.vault, hcache⟩

theorem Hopped.cacheable : Cacheable (Hopped router token s) where
  nodup _ h := h.cache
  update _ _ h hcache := ⟨h.store, h.vault, hcache, h.ledger⟩

theorem poolTokens_spec {I : Run → Prop} {fetch : Router (List Address)} {pool : Address}
    (hI : Cacheable I) (hfetch : Spec I Expected fetch fun _ => True) :
    Spec I Expected (poolTokens fetch pool) List.Nodup := by
  refine Ends.get_bind fun s₁ hs₁ => ?_
  split
  · rename_i tokens hget
    refine .pure ?_
    rintro _ rfl
    exact ⟨hs₁, hI.nodup _ hs₁ pool tokens hget⟩
  · refine Ends.pre ?_ fun _ hs => hs ▸ hs₁
    refine .bind hfetch fun tokens => ?_
    refine .bind (.require fun _ => nofun) fun _ => ?_
    refine .bind (.require fun _ => nofun) fun _ => ?_
    refine .bind (Q := fun _ s => I s ∧ tokens.Nodup) (.modify ?_) fun _ => .pure fun _ hs => hs
    rintro s₂ ⟨⟨⟨hs₂, -⟩, -⟩, -, hnodup⟩
    refine ⟨hI.update s₂ _ hs₂ fun p ts hts => ?_, hnodup⟩
    by_cases hp : p = pool
    · subst hp
      dsimp only at hts
      rw [SortedMap.get?_set_self, Option.some.injEq] at hts
      exact hts ▸ hnodup
    · dsimp only at hts
      rw [SortedMap.get?_set_ne _ _ hp] at hts
      exact hI.nodup _ hs₂ p ts hts

theorem granted_ne {grants : List Grant} {t : Address} (h : ∀ g ∈ grants, g.token ≠ t) :
    granted grants t = 0 := by
  unfold granted
  rw [List.map_congr_left fun g hg => if_neg (h g hg)]
  simp

theorem invoke_hop {grants : List Grant} {call : VenueCall}
    (hgrants : ∀ g ∈ grants, g.token = token) :
    Spec (Hopped router token s) Expected (invoke venues grants call) fun _ => True := by
  refine Ends.start fun s₁ hs₁ => invoke_ends.post fun _ s₂ hspent => ⟨?_, trivial⟩
  exact hs₁.spend hspent fun t ht => granted_ne fun g hg heq => ht (heq ▸ hgrants g hg)

theorem invoke_read {I : Run → Prop} {call : VenueCall}
    (hI : ∀ s s', I s → Spent router 0 s s' → I s') :
    Spec I Expected (invoke venues [] call) fun _ => True := by
  refine Ends.start fun s₁ hs₁ => invoke_ends.post fun _ s₂ hspent => ⟨?_, trivial⟩
  exact hI s₁ s₂ hs₁ ⟨hspent.store, hspent.vault, hspent.cache, hspent.ledger⟩

section Adapters

variable {hop : SwapHop} {amountIn : Int}

theorem avoids_generic {α : Type} {x : Result α} :
    Avoids RouterError.internalInvariant (liftM x : Except RouterError α) := by
  cases x with
  | ok a => exact .pure
  | error e => exact nofun

theorem avoids_checkedAdd {a b : Int} : Avoids RouterError.internalInvariant (checkedAdd a b) :=
  .orThrow (.inr nofun)

theorem avoids_checkedMul {a b : Int} : Avoids RouterError.internalInvariant (checkedMul a b) :=
  .orThrow (.inr nofun)

theorem soroswapAmountOut_avoids {reserveIn reserveOut : Int} :
    Avoids RouterError.internalInvariant
      (Soroswap.soroswapAmountOut amountIn reserveIn reserveOut) := by
  unfold Soroswap.soroswapAmountOut Soroswap.soroswapFee
  split
  · exact .pure
  · refine .bind ?_ fun fee _ => ?_
    · split
      · exact .pure
      · exact .bind avoids_checkedMul fun _ _ => .bind avoids_checkedAdd fun _ _ => .pure
    · dsimp only
      split
      · exact .pure
      · exact .bind avoids_checkedAdd fun _ _ => avoids_generic

theorem lift_spec {I : Run → Prop} {α : Type} {x : Except RouterError α}
    (h : Avoids RouterError.internalInvariant x) :
    Spec I Expected (liftM x : Router α) fun _ => True :=
  .lift (fun _ _ => trivial) (expected_of_avoids h)

theorem invoke_hop_read {call : VenueCall} :
    Spec (Hopped router token s) Expected (invoke venues [] call) fun _ => True :=
  invoke_hop nofun

theorem invoke_hop_pull {call : VenueCall} :
    Spec (Hopped router hop.tokenIn s) Expected (invoke venues (poolPull hop amountIn) call)
      fun _ => True :=
  invoke_hop fun g hg => by
    rw [poolPull, List.mem_singleton] at hg
    rw [hg]

theorem Soroswap.swap_spec : Spec (Hopped router hop.tokenIn s) Expected
    (Soroswap.swap venues hop amountIn) fun _ => True := by
  refine .bind invoke_hop_read fun reserves _ => ?_
  dsimp only
  refine .bind (lift_spec soroswapAmountOut_avoids) fun out _ => ?_
  refine .bind (Ends.require fun _ => nofun) fun _ _ => ?_
  refine .bind (Q := fun _ => True) ?_ fun _ _ => invoke_hop_read
  refine Ends.start fun s₁ hs₁ =>
    (transfer_ends router).post fun _ s₂ hspent => ⟨?_, trivial⟩
  exact hs₁.spend hspent fun t ht => single_ne _ ht

theorem findIndex_spec {I : Run → Prop} {tokens : List Address} {target : Address} :
    Spec I Expected (liftM (findIndex tokens target) : Router Nat) fun _ => True :=
  lift_spec (.orThrow (.inr nofun))

theorem toU128_avoids {a : Int} : Avoids RouterError.internalInvariant (toU128 a) :=
  .bind (.require nofun) fun _ _ => .pure

theorem Aquarius.swap_spec : Spec (Hopped router hop.tokenIn s) Expected
    (Aquarius.swap venues hop amountIn) fun _ => True := by
  refine .bind (poolTokens_spec Hopped.cacheable invoke_hop_read) fun tokens _ => ?_
  refine .bind findIndex_spec fun _ _ => .bind findIndex_spec fun _ _ => ?_
  exact .bind (lift_spec toU128_avoids) fun _ _ => invoke_hop_pull

theorem Sushi.swap_spec : Spec (Hopped router hop.tokenIn s) Expected
    (Sushi.swap venues hop amountIn) fun _ => True := by
  refine .bind invoke_hop_read fun token0 _ => .bind invoke_hop_read fun token1 _ => ?_
  refine .bind (lift_spec ?_) fun _ _ => .bind invoke_hop_read fun _ _ => invoke_hop_pull
  unfold directionForPair
  split
  · exact .pure
  · split
    · exact .pure
    · exact nofun

theorem Curve.swap_spec : Spec (Hopped router hop.tokenIn s) Expected
    (Curve.swap venues hop amountIn) fun _ => True := by
  have hcoins : Spec (Hopped router hop.tokenIn s) Expected (Curve.coins venues hop.pool)
      fun _ => True :=
    .bind invoke_hop_read fun info _ => lift_spec (.orThrow (.inr nofun))
  refine .bind (poolTokens_spec Hopped.cacheable hcoins) fun tokens _ => ?_
  split
  · exact .bind findIndex_spec fun _ _ => invoke_hop_pull
  · refine .bind findIndex_spec fun i _ => ?_
    exact .ite (fun _ => invoke_hop_pull) fun _ => .bind findIndex_spec fun _ _ => invoke_hop_pull

/-- A hop of any venue spends nothing but its input token. -/
theorem venueSwap_spec : Spec (Hopped router hop.tokenIn s) Expected
    (venueSwap venues hop amountIn) fun _ => True := by
  unfold venueSwap
  cases hop.venue with
  | soroswap => exact Soroswap.swap_spec
  | aquarius => exact Aquarius.swap_spec
  | phoenix => exact invoke_hop_pull
  | sushi => exact Sushi.swap_spec
  | cometDex => exact invoke_hop_pull
  | curve => exact Curve.swap_spec

/-- What a hop was measured to do: it spent exactly its input and received what it returns. -/
theorem dispatchHop_ends (hcache : CacheNodup s) :
    Ends (· = s) Expected (dispatchHop venues hop amountIn) fun received s' =>
      hop.tokenIn ≠ hop.tokenOut ∧ Hopped router hop.tokenIn s s' ∧ 0 < received ∧
        s'.ledger.balance hop.tokenOut router =
          s.ledger.balance hop.tokenOut router + received ∧
        s'.ledger.balance hop.tokenIn router =
          s.ledger.balance hop.tokenIn router - amountIn := by
  refine .bind (.require fun _ => nofun) fun _ => .bind (.require fun _ => nofun) fun _ => ?_
  refine .bind balance_ends fun beforeIn => .bind balance_ends fun beforeOut => ?_
  refine .start fun s₁ hs₁ => ?_
  obtain ⟨⟨⟨⟨rfl, -⟩, hne⟩, rfl⟩, rfl⟩ := hs₁
  refine .bind (Q := fun _ s => Hopped router hop.tokenIn s₁ s) ?_ fun _ => ?_
  · refine venueSwap_spec.conseq ?_ fun _ _ hs => hs.1
    rintro _ rfl
    exact ⟨rfl, rfl, hcache, fun _ _ => le_refl _⟩
  refine .bind balance_ends fun afterOut => .bind (.orThrow fun _ => nofun) fun received => ?_
  refine .bind (.require fun _ => nofun) fun _ => ?_
  refine .bind balance_ends fun afterIn => .bind (.orThrow fun _ => nofun) fun spent => ?_
  refine .bind (.require fun _ => nofun) fun _ => .pure ?_
  rintro s ⟨⟨⟨⟨⟨⟨hs, rfl⟩, hreceived⟩, hpos⟩, rfl⟩, hspent⟩, heq⟩
  obtain ⟨-, rfl⟩ := I128.checkedSub_some.mp hreceived
  obtain ⟨-, rfl⟩ := I128.checkedSub_some.mp hspent
  exact ⟨hne, hs, hpos, by omega, by omega⟩

/-- A hop turns the input outside the vault into the output outside the vault. -/
theorem dispatchHop_keeps : Ends (Solid router base (single hop.tokenIn amountIn)) Expected
    (dispatchHop venues hop amountIn) fun received =>
      Solid router base (single hop.tokenOut received) := by
  refine .start fun s₀ hs₀ => (dispatchHop_ends hs₀.cache).post ?_
  rintro received s ⟨hne, hs, -, hout, hin⟩
  refine ⟨hs.store ▸ hs₀.balanced, hs.store ▸ hs₀.grown, fun t => ?_, hs.vault ▸ hs₀.vault,
    hs.cache⟩
  have hcovered := hs₀.covered t
  rw [hs.store, hs.vault]
  by_cases htin : t = hop.tokenIn
  · subst htin
    rw [single_self] at hcovered
    rw [single_ne _ hne]
    omega
  · have hledger := hs.ledger t htin
    rw [single_ne _ htin] at hcovered
    by_cases htout : t = hop.tokenOut
    · subst htout
      rw [single_self]
      omega
    · rw [single_ne _ htout]
      omega

end Adapters

end Lending.SwapAggregator
