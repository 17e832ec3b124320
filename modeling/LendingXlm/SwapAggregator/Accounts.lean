import LendingXlm.SwapAggregator.Backing

/-!
# What an instruction spends and receives

Every instruction of a strategy moves the vault by amounts it measured at the router's balances.
`Measured router fill s s'`: between `s` and `s'` the vault spent `fill.spent` and was credited
`fill.received`, and the router's balances moved by no less.

* `executeSwap_measured`, `removeLiquidity_measured`, `addLiquidity_measured`: the instructions;
* `executeNext_measured`: one round of the loop, and what it hands on as the previous output.
-/

namespace Lending.SwapAggregator

open Fallible Transaction

variable {router : Address} {venues : Venues router} {s s' : Run} {token : Address} {amount : Int}

/-! ## Entries of the vault -/

theorem single_nonneg (h : 0 ≤ amount) (t : Address) : 0 ≤ single token amount t := by
  unfold single
  split
  · exact h
  · exact le_refl _

theorem Vault.creditedOf_set {v : Vault} {balances : SortedMap Address Int} {new : Int}
    (t : Address) : Vault.creditedOf ⟨balances, v.credited.set token new⟩ t =
      v.creditedOf t + single token (new - v.creditedOf token) t := by
  unfold Vault.creditedOf
  by_cases ht : t = token
  · subst ht
    rw [SortedMap.get?_set_self, single_self, Option.getD_some]
    omega
  · rw [SortedMap.get?_set_ne _ _ ht, single_ne _ ht, add_zero]

theorem Vault.deposit_credited {v v' : Vault} (h : v.deposit token amount = .ok v') (t : Address) :
    v'.creditedOf t = v.creditedOf t + single token amount t := by
  unfold Vault.deposit at h
  by_cases hzero : amount = 0
  · rw [if_pos hzero, Fallible.pure_ok_iff] at h
    rw [← h, hzero, single_zero, add_zero]
  · rw [if_neg hzero] at h
    simp only [Fallible.bind_ok_iff, require_ok_iff, orThrow_ok_iff, I128.checkedAdd_some,
      Fallible.pure_ok_iff] at h
    obtain ⟨_, _, new, _, credited, ⟨_, rfl⟩, rfl⟩ := h
    rw [creditedOf_set, add_sub_cancel_left]

theorem Vault.withdraw_credited {v v' : Vault} (h : v.withdraw token amount = .ok v')
    (t : Address) : v'.creditedOf t = v.creditedOf t := by
  unfold Vault.withdraw at h
  by_cases hzero : amount = 0
  · rw [if_pos hzero, Fallible.pure_ok_iff] at h
    rw [← h]
  · rw [if_neg hzero] at h
    simp only [Fallible.bind_ok_iff, require_ok_iff, Fallible.pure_ok_iff] at h
    obtain ⟨_, _, _, _, rfl⟩ := h
    rfl

/-- A booking that counts `credit` towards what the vault was ever credited. -/
structure Entered (token : Address) (amount credit : Int) (s s' : Run) : Prop
    extends Booked token amount s s' where
  credited : ∀ t, s'.vault.creditedOf t = s.vault.creditedOf t + single token credit t

theorem vaultDeposit_enters : Ends (· = s) Expected (vaultDeposit token amount) fun _ s' =>
    0 ≤ amount ∧ Entered token amount amount s s' := by
  refine .get_bind fun s₁ hs₁ => ?_
  subst hs₁
  refine .bind (Q := fun v s' => s' = s₁ ∧ s₁.vault.deposit token amount = .ok v)
    (.lift (fun v hv s' hs' => ⟨hs', hv⟩) (expected_of_avoids Vault.deposit_expected)) fun v => ?_
  refine .set ?_
  rintro _ ⟨rfl, hv⟩
  obtain ⟨hnonneg, hbalance⟩ := Vault.deposit_ok hv
  exact ⟨hnonneg, ⟨rfl, rfl, rfl, hbalance⟩, Vault.deposit_credited hv⟩

theorem vaultWithdraw_enters (hvault : 0 ≤ s.vault.balanceOf token) :
    Ends (· = s) Expected (vaultWithdraw token amount) fun _ s' =>
      0 ≤ amount ∧ amount ≤ s.vault.balanceOf token ∧ Entered token (-amount) 0 s s' := by
  refine .get_bind fun s₁ hs₁ => ?_
  subst hs₁
  refine .bind (Q := fun v s' => s' = s₁ ∧ s₁.vault.withdraw token amount = .ok v)
    (.lift (fun v hv s' hs' => ⟨hs', hv⟩) (expected_of_avoids Vault.withdraw_expected)) fun v => ?_
  refine .set ?_
  rintro _ ⟨rfl, hv⟩
  obtain ⟨hnonneg, hle, hbalance⟩ := Vault.withdraw_ok hvault hv
  refine ⟨hnonneg, hle, ⟨rfl, rfl, rfl, hbalance⟩, fun t => ?_⟩
  rw [single_zero, add_zero]
  exact Vault.withdraw_credited hv t

/-! ## Fills -/

/-- What the vault spent and was credited, by token. -/
structure Fill where
  spent : Address → Int
  received : Address → Int

/-- Between `s` and `s'` the vault moved by `fill`, and the balances by no less. -/
structure Measured (router : Address) (fill : Fill) (s s' : Run) : Prop where
  store : s'.store = s.store
  cache : CacheNodup s'
  spent_nonneg : ∀ t, 0 ≤ fill.spent t
  received_nonneg : ∀ t, 0 ≤ fill.received t
  held : ∀ t, fill.spent t ≤ s.vault.balanceOf t
  balance : ∀ t, s'.vault.balanceOf t = s.vault.balanceOf t - fill.spent t + fill.received t
  credited : ∀ t, s'.vault.creditedOf t = s.vault.creditedOf t + fill.received t
  covered : ∀ t, s.ledger.balance t router - fill.spent t + fill.received t ≤
    s'.ledger.balance t router

theorem Measured.vault_nonneg {fill : Fill} (h : Measured router fill s s') (t : Address) :
    0 ≤ s'.vault.balanceOf t := by
  have h1 := h.balance t
  have h2 := h.held t
  have h3 := h.received_nonneg t
  omega

/-- What a step was credited is in the vault after it. -/
theorem Measured.received_le {fill : Fill} (h : Measured router fill s s') (t : Address) :
    fill.received t ≤ s'.vault.balanceOf t := by
  have h1 := h.balance t
  have h2 := h.held t
  omega

/-- The vault of a step that may start: nothing in it is negative, no cached pool repeats a
token. -/
structure Ready (s : Run) : Prop where
  vault : ∀ t, 0 ≤ s.vault.balanceOf t
  cache : CacheNodup s

theorem Measured.ready {fill : Fill} (h : Measured router fill s s') : Ready s' :=
  ⟨h.vault_nonneg, h.cache⟩

/-! ## Swaps -/

theorem resolveAmount_state {ctx : Ctx} {mode : Mode} {prev : PrevOutput} :
    Ends (· = s) Expected (resolveAmount ctx mode token prev) fun _ s' => s' = s :=
  Ends.post (resolveAmount_spec (I := (· = s))) fun _ _ h => h.1

theorem Entered.cacheNodup {credit : Int} (h : Entered token amount credit s s')
    (hcache : CacheNodup s) : CacheNodup s' := by
  unfold CacheNodup
  rw [h.cache]
  exact hcache

/-- A swap spends its input and receives its output, and nothing else. -/
theorem swap_measured {s₁ s₂ : Run} {hop : SwapHop} {amountIn out : Int} (hs : Ready s)
    (hwithdraw : Entered hop.tokenIn (-amountIn) 0 s s₁) (hpos : 0 < amountIn)
    (hle : amountIn ≤ s.vault.balanceOf hop.tokenIn) (hne : hop.tokenIn ≠ hop.tokenOut)
    (hhop : Hopped router hop.tokenIn s₁ s₂) (hout : 0 < out)
    (hreceived : s₂.ledger.balance hop.tokenOut router =
      s₁.ledger.balance hop.tokenOut router + out)
    (hspent : s₂.ledger.balance hop.tokenIn router =
      s₁.ledger.balance hop.tokenIn router - amountIn)
    (hdeposit : Entered hop.tokenOut out out s₂ s') :
    Measured router ⟨single hop.tokenIn amountIn, single hop.tokenOut out⟩ s s' where
  store := by rw [hdeposit.store, hhop.store, hwithdraw.store]
  cache := hdeposit.cacheNodup hhop.cache
  spent_nonneg := single_nonneg hpos.le
  received_nonneg := single_nonneg hout.le
  held t := by
    by_cases ht : t = hop.tokenIn
    · subst ht
      exact (single_self _ _).trans_le hle
    · exact (single_ne _ ht).trans_le (hs.vault t)
  balance t := by
    rw [hdeposit.vault, hhop.vault, hwithdraw.vault, single_neg]
    rfl
  credited t := by
    rw [hdeposit.credited, hhop.vault, hwithdraw.credited, single_zero, add_zero]
  covered t := by
    dsimp only
    rw [hdeposit.ledger, ← hwithdraw.ledger]
    by_cases hin : t = hop.tokenIn
    · subst hin
      rw [hspent, single_self, single_ne _ hne, add_zero]
    · have hledger := hhop.ledger t hin
      by_cases hto : t = hop.tokenOut
      · subst hto
        rw [hreceived, single_self, single_ne _ hin, sub_zero]
      · rw [single_ne _ hin, single_ne _ hto, sub_zero, add_zero]
        exact hledger

theorem executeSwap_measured {ctx : Ctx} {hop : SwapHop} {mode : Mode} {prev : PrevOutput}
    (hs : Ready s) : Ends (· = s) Expected (executeSwap venues ctx hop mode prev) fun next s' =>
      ∃ fill, Measured router fill s s' ∧
        next = some (hop.tokenOut, fill.received hop.tokenOut) := by
  refine .bind resolveAmount_state fun amountIn => .bind (.require fun _ => nofun) fun _ => ?_
  refine .start fun s₀ hs₀ => ?_
  obtain ⟨rfl, hpos⟩ := hs₀
  refine .bind (vaultWithdraw_enters (hs.vault hop.tokenIn)) fun _ => .start fun s₁ hs₁ => ?_
  obtain ⟨-, hle, hwithdraw⟩ := hs₁
  refine .bind (dispatchHop_ends (hwithdraw.cacheNodup hs.cache)) fun out => ?_
  refine .bind (.require fun _ => nofun) fun _ => .start fun s₂ hs₂ => ?_
  obtain ⟨⟨hne, hhop, -, hreceived, hspent⟩, hout⟩ := hs₂
  refine .bind vaultDeposit_enters fun _ => .pure ?_
  rintro s' ⟨-, hdeposit⟩
  exact ⟨_, swap_measured hs hwithdraw hpos hle hne hhop hout hreceived hspent hdeposit,
    by dsimp only; rw [single_self]⟩

/-! ## Constituents -/

/-- The constituents of a pool are booked one after the other; `rest` of them are not yet. Each
moves the vault by `gain` and what it was ever credited by `credit`, with `fact`. -/
structure Booking (gain credit : Address → Int) (fact : Address → Prop) (s : Run)
    (rest : List Address) (s' : Run) : Prop where
  store : s'.store = s.store
  ledger : s'.ledger = s.ledger
  cache : s'.tokensCache = s.tokensCache
  nodup : rest.Nodup
  balance : ∀ t, s'.vault.balanceOf t = s.vault.balanceOf t + if t ∈ rest then 0 else gain t
  credited : ∀ t, s'.vault.creditedOf t = s.vault.creditedOf t + if t ∈ rest then 0 else credit t
  fact : ∀ t, t ∉ rest → fact t

section Booking

variable {gain credit : Address → Int} {fact : Address → Prop} {rest : List Address}

theorem Booking.start {tokens : List Address} (hnodup : tokens.Nodup)
    (hgain : ∀ t, t ∉ tokens → gain t = 0 ∧ credit t = 0 ∧ fact t) :
    Booking gain credit fact s tokens s where
  store := rfl
  ledger := rfl
  cache := rfl
  nodup := hnodup
  balance t := by
    split
    · rw [add_zero]
    · rw [(hgain t ‹_›).1, add_zero]
  credited t := by
    split
    · rw [add_zero]
    · rw [(hgain t ‹_›).2.1, add_zero]
  fact t ht := (hgain t ht).2.2

/-- The next constituent is booked. -/
theorem Booking.next {s₁ : Run} (h : Booking gain credit fact s (token :: rest) s₁)
    (hb : Entered token (gain token) (credit token) s₁ s') (hfact : fact token) :
    Booking gain credit fact s rest s' where
  store := hb.store.trans h.store
  ledger := hb.ledger.trans h.ledger
  cache := hb.cache.trans h.cache
  nodup := h.nodup.of_cons
  balance t := by
    rw [hb.vault, h.balance]
    by_cases ht : t = token
    · subst ht
      rw [single_self, if_pos List.mem_cons_self, if_neg (List.nodup_cons.mp h.nodup).1, add_zero]
    · simp [single_ne _ ht, ht]
  credited t := by
    rw [hb.credited, h.credited]
    by_cases ht : t = token
    · subst ht
      rw [single_self, if_pos List.mem_cons_self, if_neg (List.nodup_cons.mp h.nodup).1, add_zero]
    · simp [single_ne _ ht, ht]
  fact t ht := by
    by_cases htoken : t = token
    · exact htoken ▸ hfact
    · exact h.fact t (by simp [htoken, ht])

/-- A constituent that moves nothing. -/
theorem Booking.skip (h : Booking gain credit fact s (token :: rest) s') (hgain : gain token = 0)
    (hcredit : credit token = 0) (hfact : fact token) : Booking gain credit fact s rest s' := by
  refine h.next ⟨⟨rfl, rfl, rfl, fun t => ?_⟩, fun t => ?_⟩ hfact
  · rw [hgain, single_zero, add_zero]
  · rw [hcredit, single_zero, add_zero]

end Booking

/-- `s'` differs from `s` by calls that had no grants. -/
structure Idle (router : Address) (s s' : Run) : Prop where
  store : s'.store = s.store
  vault : s'.vault = s.vault
  cache : CacheNodup s'
  ledger : ∀ t, s.ledger.balance t router ≤ s'.ledger.balance t router

theorem Idle.cacheable : Cacheable (Idle router s) where
  nodup _ h := h.cache
  update _ _ h hcache := ⟨h.store, h.vault, hcache, h.ledger⟩

theorem Idle.read {s₁ : Run} (h : Idle router s s₁) (hs : Spent router 0 s₁ s') :
    Idle router s s' where
  store := hs.store.trans h.store
  vault := hs.vault.trans h.vault
  cache := by
    unfold CacheNodup
    rw [hs.cache]
    exact h.cache
  ledger t := by
    have h1 := h.ledger t
    have h2 := hs.ledger t
    rw [Pi.zero_apply] at h2
    omega

theorem Idle.refl (hs : CacheNodup s) : Idle router s s :=
  ⟨rfl, rfl, hs, fun _ => le_refl _⟩

theorem poolTokens_idle {pool : Address} : Spec (Idle router s) Expected
    (poolTokens (Aquarius.getTokens venues pool) pool) List.Nodup :=
  poolTokens_spec Idle.cacheable (invoke_read fun _ _ => Idle.read)

theorem assertShareToken_idle {pool lpToken : Address} :
    Spec (Idle router s) Expected (Aquarius.assertShareToken venues pool lpToken) fun _ => True :=
  .bind (invoke_read fun _ _ => Idle.read) fun _ _ => lift_spec (.require nofun)

/-! ## Burning -/

section Burn

variable {gain : Address → Int} {fact : Address → Prop}

theorem creditConstituent_books {total : Int} {c : Address × Int × Int}
    {rest : List (Address × Int × Int)}
    (hgain : gain c.1 = s.ledger.balance c.1 router - c.2.1) :
    Ends (Booking gain gain (fun t => 0 ≤ gain t) s ((c :: rest).map Prod.fst)) Expected
      (Aquarius.creditConstituent router total c) fun _ =>
        Booking gain gain (fun t => 0 ≤ gain t) s (rest.map Prod.fst) := by
  obtain ⟨token, before, floor⟩ := c
  dsimp only at hgain
  refine .start fun s₁ hs₁ => ?_
  refine .bind balance_ends fun after => .bind (.orThrow fun _ => nofun) fun received => ?_
  refine .bind (.require fun _ => nofun) fun _ => ?_
  refine .bind (.lift (fun _ _ s hs => hs) (expected_of_avoids avoids_checkedAdd)) fun total => ?_
  refine .start fun s₂ hs₂ => ?_
  obtain ⟨⟨⟨rfl, rfl⟩, hreceived⟩, -⟩ := hs₂
  obtain ⟨-, rfl⟩ := I128.checkedSub_some.mp hreceived
  rw [hs₁.ledger, ← hgain]
  refine .bind vaultDeposit_enters fun _ => .pure ?_
  rintro s' ⟨hnonneg, hb⟩
  exact hs₁.next hb hnonneg

theorem creditConstituents_books (gain : Address → Int) {l : List (Address × Int × Int)}
    (hgain : ∀ c ∈ l, gain c.1 = s.ledger.balance c.1 router - c.2.1) :
    Ends (Booking gain gain (fun t => 0 ≤ gain t) s (l.map Prod.fst)) Expected
      (l.foldlM (Aquarius.creditConstituent router) 0) fun _ =>
        Booking gain gain (fun t => 0 ≤ gain t) s [] :=
  Ends.foldlM (P := fun _ l => Booking gain gain (fun t => 0 ≤ gain t) s (l.map Prod.fst))
    (fun _ c _ hc => creditConstituent_books (hgain c hc)) 0

/-- A burn spends the shares and receives what the constituents grew by. -/
theorem burn_measured {s₁ s₂ s₃ : Run} {lpToken : Address} {shares : Int} (hs : Ready s)
    (hidle : Idle router s s₁) (hspent : Spent router (granted [⟨lpToken, shares⟩]) s₁ s₂)
    (hburned : s₁.ledger.balance lpToken router - s₂.ledger.balance lpToken router = shares)
    (hnonneg : 0 ≤ shares) (hle : shares ≤ s₂.vault.balanceOf lpToken)
    (hwithdraw : Entered lpToken (-shares) 0 s₂ s₃)
    {tokens : List Address} (hgain : gain = fun t => if t ∈ tokens then
      s₃.ledger.balance t router - s₁.ledger.balance t router else 0)
    (hpos : 0 < shares) (hbook : Booking gain gain (fun t => 0 ≤ gain t) s₃ [] s') :
    Measured router ⟨single lpToken shares, gain⟩ s s' := by
  have hfact : ∀ t, 0 ≤ gain t := fun t => hbook.fact t List.not_mem_nil
  have hvault : s₂.vault = s.vault := hspent.vault.trans hidle.vault
  have hgranted : ∀ t, granted [⟨lpToken, shares⟩] t = single lpToken shares t := by
    intro t
    unfold granted single
    simp [eq_comm]
  refine ⟨?_, ?_, single_nonneg hnonneg, hfact, fun t => ?_, fun t => ?_, fun t => ?_, fun t => ?_⟩
  · rw [hbook.store, hwithdraw.store, hspent.store, hidle.store]
  · unfold CacheNodup
    rw [hbook.cache, hwithdraw.cache, hspent.cache]
    exact hidle.cache
  · by_cases ht : t = lpToken
    · subst ht
      rw [← hvault]
      exact (single_self _ _).trans_le hle
    · exact (single_ne _ ht).trans_le (hs.vault t)
  · rw [hbook.balance, hwithdraw.vault, hvault, single_neg, if_neg List.not_mem_nil]
    rfl
  · rw [hbook.credited, hwithdraw.credited, hvault, single_zero, add_zero,
      if_neg List.not_mem_nil]
  · dsimp only
    have hmore := hidle.ledger t
    have hledger := hspent.ledger t
    have hgrew := hfact t
    rw [hgranted] at hledger
    rw [hbook.ledger, hwithdraw.ledger]
    rw [hgain] at hgrew ⊢
    dsimp only at hgrew ⊢
    rw [hwithdraw.ledger] at hgrew ⊢
    by_cases ht : t = lpToken
    · subst ht
      rw [single_self] at hledger ⊢
      -- the shares are no constituent: those went down
      split_ifs at hgrew ⊢ <;> omega
    · rw [single_ne _ ht] at hledger ⊢
      split_ifs at hgrew ⊢ <;> omega

theorem removeLiquidity_measured {pool lpToken : Address} {amounts : List Int} {minStart : Nat}
    (hs : Ready s) : Ends (· = s) Expected
      (Aquarius.removeLiquidity venues pool lpToken amounts minStart) fun _ s' =>
        ∃ fill, Measured router fill s s' := by
  refine Ends.pre ?_ (show ∀ s', s' = s → Idle router s s' by rintro _ rfl; exact Idle.refl hs.cache)
  refine .bind poolTokens_idle fun tokens => .start fun s₀ hs₀ => ?_
  obtain ⟨hs₀, hnodup⟩ := hs₀
  refine .bind (Q := fun _ => Idle router s) ?_ fun _ => ?_
  · exact assertShareToken_idle.conseq (fun _ h => h ▸ hs₀) fun _ _ h => h.1
  refine .bind (.require fun _ => nofun) fun _ => .get_bind fun s₁ hs₁ => ?_
  obtain ⟨hidle, hlen⟩ := hs₁
  dsimp only
  refine .bind (.require fun _ => nofun) fun _ => ?_
  refine .bind (.lift (fun _ _ s hs => hs) (expected_of_avoids (mapM_avoids fun _ =>
    toU128_avoids))) fun minAmounts => .start fun s₂ hs₂ => ?_
  obtain ⟨rfl, hshares⟩ := hs₂
  set shares := s₂.vault.balanceOf lpToken with hdef
  refine .bind invoke_ends fun _ => .bind balance_ends fun sharesAfter => ?_
  refine .bind (.orThrow fun _ => nofun) fun burned => .bind (.require fun _ => nofun) fun _ => ?_
  refine .start fun s₃ hs₃ => ?_
  obtain ⟨⟨⟨hspent, rfl⟩, hburned⟩, heq⟩ := hs₃
  obtain ⟨-, rfl⟩ := I128.checkedSub_some.mp hburned
  have hvault : 0 ≤ s₃.vault.balanceOf lpToken := by
    rw [hspent.vault, hidle.vault]
    exact hs.vault lpToken
  refine .bind (vaultWithdraw_enters hvault) fun _ => .start fun s₄ hs₄ => ?_
  obtain ⟨hnonneg, hle, hwithdraw⟩ := hs₄
  -- the constituents in the pool's order, each with its balance before
  set l := tokens.zip ((tokens.map fun t => s₂.ledger.balance t router).zip
    ((amounts.drop minStart).take tokens.length)) with hl
  have hfst : l.map Prod.fst = tokens := by
    refine List.map_fst_zip ?_
    simp only [List.length_zip, List.length_map, List.length_take, List.length_drop]
    omega
  refine .bind (Q := fun _ s' => ∃ fill, Measured router fill s s') ?_ fun total =>
    (Ends.require fun _ => nofun).post fun _ _ h => h.1
  refine ((creditConstituents_books (fun t => if t ∈ tokens then
    s₄.ledger.balance t router - s₂.ledger.balance t router else 0) (s := s₄) ?_).pre ?_).post ?_
  · intro c hc
    rw [if_pos (hfst ▸ List.mem_map_of_mem hc), mem_zip_map_zip hc]
  · rintro _ rfl
    rw [hfst]
    exact Booking.start hnodup fun t ht => by simp [ht]
  · intro _ s' hbook
    exact ⟨_, burn_measured hs hidle hspent heq hnonneg hle hwithdraw rfl hshares hbook⟩

end Burn

/-! ## Minting -/

section Mint

variable {gain : Address → Int}

/-- What a mint may take of a constituent: no more than the vault held of it. -/
def Taken (gain : Address → Int) (s : Run) (t : Address) : Prop :=
  gain t ≤ 0 ∧ -gain t ≤ s.vault.balanceOf t

theorem debitConstituent_books {c : Address × Int × Int} {rest : List (Address × Int × Int)}
    (hheld : c.2.1 = s.vault.balanceOf c.1) (hvault : 0 ≤ s.vault.balanceOf c.1)
    (hzero : c.2.1 = 0 → gain c.1 = 0)
    (hgain : c.2.1 ≠ 0 → gain c.1 = s.ledger.balance c.1 router - c.2.2) :
    Ends (Booking gain 0 (Taken gain s) s ((c :: rest).map Prod.fst)) Expected
      (Aquarius.debitConstituent router c) fun _ =>
        Booking gain 0 (Taken gain s) s (rest.map Prod.fst) := by
  obtain ⟨token, held, before⟩ := c
  dsimp only at hheld hvault hzero hgain
  refine .start fun s₁ hs₁ => ?_
  have hpending : s₁.vault.balanceOf token = s.vault.balanceOf token := by
    rw [hs₁.balance, if_pos (by simp), add_zero]
  refine .ite (fun h => .pure ?_) fun h => ?_
  · rintro _ rfl
    have hg := hzero h
    exact hs₁.skip hg rfl ⟨hg.le, by rw [hg, neg_zero]; exact hvault⟩
  · refine .bind balance_ends fun after => .bind (.orThrow fun _ => nofun) fun spent => ?_
    refine .bind (.require fun _ => nofun) fun _ => .start fun s₂ hs₂ => ?_
    obtain ⟨⟨⟨rfl, rfl⟩, hspent⟩, -⟩ := hs₂
    obtain ⟨-, rfl⟩ := I128.checkedSub_some.mp hspent
    have hg := hgain h
    rw [← hs₁.ledger] at hg
    refine (vaultWithdraw_enters (hpending ▸ hvault)).post ?_
    rintro _ s' ⟨hnonneg, hle, hb⟩
    rw [show -(before - s₂.ledger.balance token router) = gain token by omega] at hb
    have hfact : Taken gain s token := ⟨by omega, by omega⟩
    exact hs₁.next hb hfact

theorem debitConstituents_books (gain : Address → Int) {l : List (Address × Int × Int)}
    (hl : ∀ c ∈ l, c.2.1 = s.vault.balanceOf c.1 ∧ 0 ≤ s.vault.balanceOf c.1 ∧
      (c.2.1 = 0 → gain c.1 = 0) ∧ (c.2.1 ≠ 0 → gain c.1 = s.ledger.balance c.1 router - c.2.2)) :
    Ends (Booking gain 0 (Taken gain s) s (l.map Prod.fst)) Expected
      (l.forM (Aquarius.debitConstituent router)) fun _ => Booking gain 0 (Taken gain s) s [] :=
  Ends.forM (P := fun l => Booking gain 0 (Taken gain s) s (l.map Prod.fst)) fun c _ hc =>
    debitConstituent_books (hl c hc).1 (hl c hc).2.1 (hl c hc).2.2.1 (hl c hc).2.2.2

/-- A mint spends what the constituents shrank by and receives the shares. -/
theorem mint_measured {s₁ s₂ s₃ : Run} {lpToken : Address} {shares : Int} {tokens : List Address}
    {amounts : Address → Int} (hidle : Idle router s s₁)
    (hspent : Spent router amounts s₁ s₂)
    (hamounts : ∀ t, t ∉ tokens ∨ s.vault.balanceOf t ≤ 0 → amounts t = 0)
    (hgain : gain = fun t => if t ∈ tokens ∧ 0 < s.vault.balanceOf t then
      s₂.ledger.balance t router - s₁.ledger.balance t router else 0)
    (hbook : Booking gain 0 (Taken gain s₂) s₂ [] s₃) (hpos : 0 < shares)
    (hshares : s₃.ledger.balance lpToken router - s₁.ledger.balance lpToken router = shares)
    (hdeposit : Entered lpToken shares shares s₃ s') :
    Measured router ⟨fun t => -gain t, single lpToken shares⟩ s s' := by
  have hfact : ∀ t, Taken gain s₂ t := fun t => hbook.fact t List.not_mem_nil
  have hvault : s₂.vault = s.vault := hspent.vault.trans hidle.vault
  refine ⟨?_, ?_, fun t => by have := (hfact t).1; dsimp only; omega, single_nonneg hpos.le,
    fun t => ?_, fun t => ?_, fun t => ?_, fun t => ?_⟩
  · rw [hdeposit.store, hbook.store, hspent.store, hidle.store]
  · refine hdeposit.cacheNodup ?_
    unfold CacheNodup
    rw [hbook.cache, hspent.cache]
    exact hidle.cache
  · rw [← hvault]
    exact (hfact t).2
  · rw [hdeposit.vault, hbook.balance, hvault, if_neg List.not_mem_nil, sub_neg_eq_add]
  · rw [hdeposit.credited, hbook.credited, hvault, if_neg List.not_mem_nil, Pi.zero_apply, add_zero]
  · dsimp only
    have hmore := hidle.ledger t
    have hledger := hspent.ledger t
    have htaken := (hfact t).1
    rw [hbook.ledger] at hshares
    rw [hdeposit.ledger, hbook.ledger]
    rw [hgain] at htaken ⊢
    dsimp only at htaken ⊢
    by_cases hin : t ∈ tokens ∧ 0 < s.vault.balanceOf t
    · rw [if_pos hin] at htaken ⊢
      by_cases ht : t = lpToken
      · -- the shares are no constituent the vault held: those did not grow
        subst ht
        omega
      · rw [single_ne _ ht]
        omega
    · rw [if_neg hin]
      rw [hamounts t (by rw [not_and_or, not_lt] at hin; exact hin)] at hledger
      by_cases ht : t = lpToken
      · subst ht
        rw [single_self]
        omega
      · rw [single_ne _ ht]
        omega

/-- What `poolTokens` granted a mint: the vault's holdings of its constituents. -/
theorem granted_held {tokens : List Address} {v : Vault} {t : Address}
    (h : t ∉ tokens ∨ v.balanceOf t ≤ 0) :
    granted (((tokens.zip (tokens.map v.balanceOf)).filter fun c => decide (0 < c.2)).map
      fun c => ⟨c.1, c.2⟩) t = 0 := by
  refine granted_ne fun g hg => ?_
  obtain ⟨c, hc, rfl⟩ := List.mem_map.mp hg
  obtain ⟨hc, hpos⟩ := List.mem_filter.mp hc
  rw [decide_eq_true_eq, mem_zip_map hc] at hpos
  rintro rfl
  rcases h with h | h
  · exact h (List.of_mem_zip hc).1
  · exact absurd hpos (not_lt.mpr h)

theorem addLiquidity_measured {pool lpToken : Address} {minShares : Int} (hs : Ready s) :
    Ends (· = s) Expected (Aquarius.addLiquidity venues pool lpToken minShares) fun shares s' =>
      ∃ fill, Measured router fill s s' ∧ shares = fill.received lpToken := by
  refine Ends.pre ?_ (show ∀ s', s' = s → Idle router s s' by rintro _ rfl; exact Idle.refl hs.cache)
  refine .bind poolTokens_idle fun tokens => .start fun s₀ hs₀ => ?_
  obtain ⟨hs₀, hnodup⟩ := hs₀
  refine .bind (Q := fun _ => Idle router s) ?_ fun _ => ?_
  · exact assertShareToken_idle.conseq (fun _ h => h ▸ hs₀) fun _ _ h => h.1
  refine .bind (.require fun _ => nofun) fun _ => .get_bind fun s₁ hs₁ => ?_
  obtain ⟨hidle, hmin⟩ := hs₁
  refine .bind (Q := fun held s' => s' = s₁ ∧ held = tokens.map s₁.vault.balanceOf)
    (.lift (fun held hheld s' hs' => ⟨hs', toU128_mapM hheld⟩)
      (expected_of_avoids (mapM_avoids fun _ => toU128_avoids))) fun held => ?_
  dsimp only
  refine .bind (.lift (fun _ _ s hs => hs)
    (expected_of_avoids (.foldlM (fun _ _ => avoids_checkedAdd) 0))) fun total => ?_
  refine .bind (.require fun _ => nofun) fun _ => .start fun s₂ hs₂ => ?_
  obtain ⟨⟨rfl, rfl⟩, -⟩ := hs₂
  refine .bind invoke_ends fun _ => .start fun s₃ hspent => ?_
  have hvault : s₃.vault = s.vault := hspent.vault.trans hidle.vault
  set l := tokens.zip ((tokens.map s₂.vault.balanceOf).zip (tokens.map fun t =>
    if 0 < s₂.vault.balanceOf t then s₂.ledger.balance t router else 0)) with hl
  have hfst : l.map Prod.fst = tokens := List.map_fst_zip (by simp)
  set gain : Address → Int := fun t => if t ∈ tokens ∧ 0 < s.vault.balanceOf t then
    s₃.ledger.balance t router - s₂.ledger.balance t router else 0 with hgain
  refine .bind (Q := fun _ => Booking gain 0 (Taken gain s₃) s₃ []) ?_ fun _ => ?_
  · refine (debitConstituents_books gain ?_).pre ?_
    · intro c hc
      have hmem : c.1 ∈ tokens := hfst ▸ List.mem_map_of_mem hc
      rw [hl, List.zip_map'] at hc
      have hpair := mem_zip_map hc
      have hnonneg := hs.vault c.1
      rw [hvault, congrArg Prod.fst hpair, congrArg Prod.snd hpair, hidle.vault]
      refine ⟨rfl, hnonneg, fun h => if_neg fun h' => h'.2.ne' h, fun h => ?_⟩
      have hpos : 0 < s.vault.balanceOf c.1 := lt_of_le_of_ne hnonneg (Ne.symm h)
      rw [hgain]
      dsimp only
      rw [if_pos ⟨hmem, hpos⟩, if_pos hpos]
    · rintro _ rfl
      rw [hfst]
      refine Booking.start hnodup fun t ht => ?_
      have hzero : gain t = 0 := if_neg fun h => ht h.1
      refine ⟨hzero, rfl, hzero.le, ?_⟩
      rw [hzero, neg_zero, hvault]
      exact hs.vault t
  · refine .bind balance_ends fun sharesAfter => .bind (.orThrow fun _ => nofun) fun shares => ?_
    refine .bind (.require fun _ => nofun) fun _ => .start fun s₄ hs₄ => ?_
    obtain ⟨⟨⟨hbook, rfl⟩, hshares⟩, hle⟩ := hs₄
    obtain ⟨-, rfl⟩ := I128.checkedSub_some.mp hshares
    refine .bind vaultDeposit_enters fun _ => .pure ?_
    rintro s' ⟨-, hdeposit⟩
    refine ⟨_, mint_measured hidle hspent (fun t ht => granted_held ?_) hgain hbook (by omega) rfl
      hdeposit, ?_⟩
    · rw [hidle.vault]
      exact ht
    · dsimp only
      rw [single_self]

end Mint

/-! ## Instructions -/

/-- What an instruction hands on for the next one: its single output and what it received of it. -/
def HandsOn (ctx : Ctx) (op : Op) (fill : Fill) (next : PrevOutput) : Prop :=
  match op.opcode with
  | .swap _ => ∃ t, ctx.assets[op.idxC]? = some t ∧ next = some (t, fill.received t)
  | .mint => ∃ t, ctx.assets[op.idxB]? = some t ∧ next = some (t, fill.received t)
  | .burn => next = none

theorem executeOp_measured {ctx : Ctx} {op : Op} {prev : PrevOutput} (hs : Ready s) :
    Ends (· = s) Expected (executeOp venues ctx op prev) fun next s' =>
      ∃ fill, Measured router fill s s' ∧ HandsOn ctx op fill next := by
  refine .bind (.orThrow fun _ => nofun) fun a => .bind (.orThrow fun _ => nofun) fun b => ?_
  refine .start fun s₀ hs₀ => ?_
  obtain ⟨⟨rfl, -⟩, hb⟩ := hs₀
  unfold HandsOn
  cases op.opcode with
  | swap venue =>
    refine .bind (.orThrow fun _ => nofun) fun c => .start fun s₁ hs₁ => ?_
    obtain ⟨rfl, hc⟩ := hs₁
    refine (executeSwap_measured hs).post ?_
    rintro next s' ⟨fill, hmeasured, hnext⟩
    exact ⟨fill, hmeasured, c, hc, hnext⟩
  | burn =>
    refine .bind (removeLiquidity_measured hs) fun _ => .pure ?_
    rintro s' ⟨fill, hmeasured⟩
    exact ⟨fill, hmeasured, rfl⟩
  | mint =>
    refine .bind (.orThrow fun _ => nofun) fun minShares => .start fun s₁ hs₁ => ?_
    obtain ⟨rfl, -⟩ := hs₁
    refine .bind (addLiquidity_measured hs) fun shares => .pure ?_
    rintro s' ⟨fill, hmeasured, rfl⟩
    exact ⟨fill, hmeasured, b, hb, rfl⟩

theorem executeNext_measured {ctx : Ctx} {prev : PrevOutput} {i : Nat} (hs : Ready s) :
    Ends (· = s) Expected (executeNext venues ctx prev i) fun next s' =>
      ∃ op fill, ctx.program.op i = .ok op ∧ Measured router fill s s' ∧
        HandsOn ctx op fill next := by
  refine .bind (Q := fun op s' => s' = s ∧ ctx.program.op i = .ok op)
    (Ends.lift (fun _ hop _ h => ⟨h, hop⟩) (expected_of_avoids op_avoids)) fun op => ?_
  refine .start fun s₀ hs₀ => ?_
  obtain ⟨rfl, hop⟩ := hs₀
  refine (executeOp_measured hs).post ?_
  rintro next s' ⟨fill, hmeasured, hnext⟩
  exact ⟨op, fill, hop, hmeasured, hnext⟩

end Lending.SwapAggregator
