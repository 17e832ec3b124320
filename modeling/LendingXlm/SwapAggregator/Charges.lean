import LendingXlm.SwapAggregator.Accounts

/-!
# Fees and residuals, to the unit

* `applyFeesOnToken_charged`: a fee leaves the vault, is at most the cap of the balance it is taken
  from, needs an active referral, and is posted to the admin's and the referral's bucket;
* `accrueResidualAsRevenue_swept`: what is left of each token is within its allowance and posted to
  the admin's bucket of that token.
-/

namespace Lending.SwapAggregator

open Fallible Transaction

variable {s s' : Run} {token : Address} {amount : Int}

/-! ## Posting -/

section Posting

variable {store store' : Storage} {key : FeeKey}

theorem creditBucket_posts (h : store.creditBucket key amount = .ok store') (k : FeeKey) :
    store'.feeBalance k = store.feeBalance k + if k = key then amount else 0 := by
  obtain ⟨next, hnext, h⟩ := Fallible.bind_ok h
  obtain rfl := Fallible.pure_ok_iff.mp h
  rw [checkedAdd_ok hnext]
  by_cases hk : k = key
  · subst hk
    rw [feeBalance_setFee_self, if_pos rfl]
  · rw [feeBalance_setFee_ne hk, if_neg hk, add_zero]

theorem accumulateFee_posts (h : store.accumulateFee key amount = .ok store') (k : FeeKey) :
    store'.feeBalance k = store.feeBalance k + if k = key then amount else 0 := by
  obtain ⟨credited, hcredit, hreserve⟩ := Fallible.bind_ok h
  rw [(reserve_spec hreserve).1, creditBucket_posts hcredit]

theorem accumulateSwapFee_posts {reserved : Int} {r : Storage × Int} (hamount : 0 ≤ amount)
    (h : store.accumulateSwapFee key amount reserved = .ok r) (k : FeeKey) :
    r.1.feeBalance k = store.feeBalance k + if k = key then amount else 0 := by
  unfold Storage.accumulateSwapFee at h
  by_cases hpos : 0 < amount
  · simp only [if_pos hpos, Fallible.bind_ok_iff, Fallible.pure_ok_iff] at h
    obtain ⟨credited, hcredit, total, _, rfl⟩ := h
    exact creditBucket_posts hcredit k
  · simp only [if_neg hpos, Fallible.pure_ok_iff] at h
    obtain rfl : amount = 0 := by omega
    rw [← h, ite_self, add_zero]

end Posting

/-! ## Fees -/

/-- What one charge takes: the static part and the referral's. -/
structure Fee where
  static : Int
  referral : Int

namespace Fee

def total (fee : Fee) : Int := fee.static + fee.referral

/-- What a charge posts to a bucket. -/
def share (fee : Fee) (token : Address) (referralId : Nat) (key : FeeKey) : Int :=
  (if key = .adminFee token then fee.static else 0) +
    if key = .referralFee referralId token then fee.referral else 0

def none : Fee := ⟨0, 0⟩

end Fee

theorem accumulateSwapFees_posts {store store' : Storage} {referralId : Nat} {fee : Fee}
    (hstatic : 0 ≤ fee.static) (hreferral : 0 ≤ fee.referral)
    (h : store.accumulateSwapFees token referralId fee.static fee.referral = .ok store')
    (k : FeeKey) :
    store'.feeBalance k = store.feeBalance k + fee.share token referralId k := by
  obtain ⟨⟨s₁, r₁⟩, hfirst, h⟩ := Fallible.bind_ok h
  obtain ⟨⟨s₂, r₂⟩, hsecond, h⟩ := Fallible.bind_ok h
  have h₁ := accumulateSwapFee_posts hstatic hfirst k
  have h₂ := accumulateSwapFee_posts hreferral hsecond k
  dsimp only at h h₁ h₂
  rw [(reserve_spec h).1, h₂, h₁, Fee.share, add_assoc]

/-- What `cfg` and the static fee take of a balance. -/
def Fee.ofActive (store : Storage) (cfg : ReferralConfig) (balance : Int) : Fee :=
  ⟨balance * store.staticFee / bps, balance * cfg.feeBps / bps⟩

/-- A charge of `fee` on what the vault held of `token`. -/
structure Charged (token : Address) (referralId : Nat) (fee : Fee) (s s' : Run) : Prop where
  ledger : s'.ledger = s.ledger
  cache : s'.tokensCache = s.tokensCache
  nonneg : 0 ≤ fee.static ∧ 0 ≤ fee.referral
  balance : ∀ t, s'.vault.balanceOf t = s.vault.balanceOf t - single token fee.total t
  credited : ∀ t, s'.vault.creditedOf t = s.vault.creditedOf t
  posted : ∀ k, s'.store.feeBalance k = s.store.feeBalance k + fee.share token referralId k
  active : 0 < fee.total → referralId ≠ 0 ∧ ∃ cfg,
    s.store.referral referralId = some cfg ∧ cfg.active = true ∧
      fee = .ofActive s.store cfg (s.vault.balanceOf token)
  capped : fee.total * bps ≤ feeCap * s.vault.balanceOf token

theorem Charged.refl {referralId : Nat} (hs : Ready s) : Charged token referralId .none s s where
  ledger := rfl
  cache := rfl
  nonneg := ⟨le_refl _, le_refl _⟩
  balance t := by simp [Fee.total, Fee.none]
  credited _ := rfl
  posted k := by simp [Fee.share, Fee.none]
  active h := absurd h (by decide)
  capped := by
    have := hs.vault token
    change (0 : Int) * bps ≤ _
    rw [zero_mul]
    exact mul_nonneg (Int.natCast_nonneg _) this

theorem feeAmount_eq {balance fee : Int} {feeBps : Nat} (hbalance : 0 ≤ balance)
    (h : feeAmount balance feeBps = .ok fee) : fee = balance * feeBps / bps := by
  obtain ⟨product, hproduct, h⟩ := Fallible.bind_ok h
  rw [Fallible.pure_ok_iff] at h
  rw [← h, checkedMul_ok hproduct]
  exact Int.tdiv_eq_ediv_of_nonneg (mul_nonneg hbalance (Int.natCast_nonneg feeBps))

/-- Both parts together stay within the cap. -/
theorem ofActive_capped {store : Storage} {cfg : ReferralConfig} {balance : Int}
    (hbalance : 0 ≤ balance) (hcap : store.staticFee + cfg.feeBps ≤ feeCap) :
    (Fee.ofActive store cfg balance).total * bps ≤ feeCap * balance := by
  have hbps : (0 : Int) < bps := by decide
  have h1 := Int.ediv_mul_le (balance * store.staticFee) hbps.ne'
  have h2 := Int.ediv_mul_le (balance * cfg.feeBps) hbps.ne'
  have hsum : ((store.staticFee + cfg.feeBps : Nat) : Int) ≤ feeCap := by exact_mod_cast hcap
  have h3 := mul_le_mul_of_nonneg_left hsum hbalance
  push_cast at h3
  unfold Fee.total Fee.ofActive
  dsimp only
  linarith

theorem applyActiveFees_charged {referralId : Nat} {cfg : ReferralConfig} (hs : Ready s)
    (hid : referralId ≠ 0) (hcfg : s.store.referral referralId = some cfg)
    (hactive : cfg.active = true) :
    Ends (· = s) Expected (applyActiveFees token referralId cfg) fun _ s' =>
      ∃ fee, Charged token referralId fee s s' := by
  have hnone : ∃ fee, Charged token referralId fee s s := ⟨_, Charged.refl hs⟩
  refine .get_bind fun s₁ hs₁ => ?_
  subst hs₁
  refine .ite (fun _ => .pure fun _ h => h ▸ hnone) fun hpos => ?_
  refine .bind (.require fun _ => nofun) fun _ => ?_
  refine .ite (fun _ => .pure fun _ h => h.1 ▸ hnone) fun _ => ?_
  refine .bind (.require fun _ => nofun) fun _ => ?_
  have hnonneg : 0 ≤ s₁.vault.balanceOf token := (not_le.mp hpos).le
  refine .bind (Q := fun fee s' => s' = s₁ ∧ s₁.store.staticFee + cfg.feeBps ≤ feeCap ∧
    0 ≤ fee ∧ fee = s₁.vault.balanceOf token * s₁.store.staticFee / bps) (.lift ?_
      (expected_of_avoids feeAmount_avoids)) fun staticFee => ?_
  · exact fun fee hfee s' hs' =>
      ⟨hs'.1.1, hs'.2, feeAmount_nonneg hnonneg hfee, feeAmount_eq hnonneg hfee⟩
  refine .start fun s₂ hs₂ => ?_
  obtain ⟨rfl, hcap, hstatic, hstaticEq⟩ := hs₂
  refine .bind (Q := fun fee s' => s' = s₂ ∧ 0 ≤ fee ∧
    fee = s₂.vault.balanceOf token * cfg.feeBps / bps) (.lift ?_
      (expected_of_avoids feeAmount_avoids)) fun referralFee => ?_
  · exact fun fee hfee s' hs' => ⟨hs', feeAmount_nonneg hnonneg hfee, feeAmount_eq hnonneg hfee⟩
  refine .start fun s₃ hs₃ => ?_
  obtain ⟨rfl, hreferral, hreferralEq⟩ := hs₃
  refine .bind (Q := fun total s' => s' = s₃ ∧ total = staticFee + referralFee) (.lift ?_
    (expected_of_avoids avoids_checkedAdd)) fun total => ?_
  · exact fun total htotal s' hs' => ⟨hs', checkedAdd_ok htotal⟩
  refine .start fun s₄ hs₄ => ?_
  obtain ⟨rfl, rfl⟩ := hs₄
  refine .ite (fun _ => .pure fun _ h => h ▸ hnone) fun _ => ?_
  refine .bind (vaultWithdraw_enters (hs.vault token)) fun _ => .get_bind fun s₅ hs₅ => ?_
  obtain ⟨-, -, hwithdraw⟩ := hs₅
  refine .bind (Q := fun store s' => s' = s₅ ∧ s₅.store.accumulateSwapFees token referralId
    staticFee referralFee = .ok store) (.lift (fun store hstore s' hs' => ⟨hs', hstore⟩)
      fun e he => accumulateSwapFees_expected hstatic hreferral he) fun store => ?_
  refine .set ?_
  rintro _ ⟨rfl, hstore⟩
  refine ⟨⟨staticFee, referralFee⟩, hwithdraw.ledger, hwithdraw.cache, ⟨hstatic, hreferral⟩,
    fun t => ?_, fun t => ?_, fun k => ?_, fun _ => ⟨hid, cfg, hcfg, hactive, ?_⟩, ?_⟩
  · dsimp only
    rw [hwithdraw.vault, single_neg]
    rfl
  · dsimp only
    rw [hwithdraw.credited, single_zero, add_zero]
  · rw [← hwithdraw.store]
    exact accumulateSwapFees_posts hstatic hreferral hstore k
  · rw [hstaticEq, hreferralEq]
    rfl
  · rw [hstaticEq, hreferralEq]
    exact ofActive_capped hnonneg hcap

theorem applyFeesOnToken_charged {referralId : Nat} (hs : Ready s) :
    Ends (· = s) Expected (applyFeesOnToken token referralId) fun _ s' =>
      ∃ fee, Charged token referralId fee s s' := by
  have hnone : ∃ fee, Charged token referralId fee s s := ⟨_, Charged.refl hs⟩
  refine .ite (fun _ => .pure fun _ h => h ▸ hnone) fun hid => .get_bind fun s₁ hs₁ => ?_
  subst hs₁
  cases hcfg : s₁.store.referral referralId with
  | none => exact .pure fun _ h => h ▸ hnone
  | some cfg =>
    refine .ite (fun hactive => ?_) fun _ => .pure fun _ h => h ▸ hnone
    exact applyActiveFees_charged hs hid hcfg hactive

theorem Charged.ready {referralId : Nat} {fee : Fee} (h : Charged token referralId fee s s')
    (hs : Ready s) : Ready s' where
  vault t := by
    rw [h.balance]
    have hbps : (0 : Int) < bps := by decide
    by_cases ht : t = token
    · subst ht
      rw [single_self]
      have hcapped := h.capped
      have hcap : (feeCap : Int) ≤ bps := by decide
      have hbalance := hs.vault t
      have : fee.total * bps ≤ s.vault.balanceOf t * bps := by nlinarith
      have := le_of_mul_le_mul_right this hbps
      omega
    · rw [single_ne _ ht, sub_zero]
      exact hs.vault t
  cache := by
    unfold CacheNodup
    rw [h.cache]
    exact hs.cache

/-! ## Residuals -/

/-- What a bucket gets of the residuals. -/
def residualShare (residual : Address → Int) : FeeKey → Int
  | .adminFee t => residual t
  | .referralFee _ _ => 0

/-- The residuals of `s` are accrued one token after the other; `rest` of them are not yet. -/
structure Sweeping (s : Run) (rest : List Address) (s' : Run) : Prop where
  ledger : s'.ledger = s.ledger
  nodup : rest.Nodup
  balance : ∀ t, s'.vault.balanceOf t = if t ∈ rest then s.vault.balanceOf t else 0
  credited : ∀ t, s'.vault.creditedOf t = s.vault.creditedOf t
  posted : ∀ k, s'.store.feeBalance k = s.store.feeBalance k +
    residualShare (fun t => if t ∈ rest then 0 else s.vault.balanceOf t) k
  allowed : ∀ t, t ∉ rest → s.vault.balanceOf t ≤ residualAllowance (s.vault.creditedOf t)

theorem residualAllowance_nonneg (credited : Int) : 0 ≤ residualAllowance credited :=
  le_max_of_le_right (by decide)

/-- Nothing is accrued yet. -/
theorem Sweeping.start : Sweeping s s.vault.tokens s := by
  have hzero : ∀ t, t ∉ s.vault.tokens → s.vault.balanceOf t = 0 := by
    intro t ht
    unfold Vault.balanceOf
    cases hget : s.vault.balances.get? t with
    | none => rfl
    | some v => exact absurd (SortedMap.mem_keys.mpr ⟨v, hget⟩) ht
  refine ⟨rfl, SortedMap.nodup_keys _, fun t => ?_, fun _ => rfl, fun k => ?_, fun t ht => ?_⟩
  · by_cases ht : t ∈ s.vault.tokens
    · rw [if_pos ht]
    · rw [if_neg ht, hzero t ht]
  · cases k with
    | referralFee id t => exact (add_zero _).symm
    | adminFee t =>
      unfold residualShare
      dsimp only
      by_cases ht : t ∈ s.vault.tokens
      · rw [if_pos ht, add_zero]
      · rw [if_neg ht, hzero t ht, add_zero]
  · rw [hzero t ht]
    exact residualAllowance_nonneg _

/-- The next token is accrued. -/
theorem Sweeping.next {rest : List Address} {s₁ : Run} (h : Sweeping s (token :: rest) s₁)
    (hledger : s'.ledger = s₁.ledger)
    (hbalance : ∀ t, s'.vault.balanceOf t =
      s₁.vault.balanceOf t - single token (s.vault.balanceOf token) t)
    (hcredited : ∀ t, s'.vault.creditedOf t = s₁.vault.creditedOf t)
    (hposted : ∀ k, s'.store.feeBalance k = s₁.store.feeBalance k +
      if k = .adminFee token then s.vault.balanceOf token else 0)
    (hallowed : s.vault.balanceOf token ≤ residualAllowance (s.vault.creditedOf token)) :
    Sweeping s rest s' := by
  obtain ⟨hnot, hnodup⟩ := List.nodup_cons.mp h.nodup
  refine ⟨hledger.trans h.ledger, hnodup, fun t => ?_, fun t => (hcredited t).trans (h.credited t),
    fun k => ?_, fun t ht => ?_⟩
  · rw [hbalance, h.balance]
    by_cases ht : t = token
    · subst ht
      rw [if_pos List.mem_cons_self, if_neg hnot, single_self, sub_self]
    · simp [single_ne _ ht, ht]
  · rw [hposted, h.posted]
    cases k with
    | referralFee id t => simp [residualShare]
    | adminFee t =>
      by_cases ht : t = token
      · subst ht
        simp [residualShare, hnot]
      · simp [residualShare, ht]
  · by_cases heq : t = token
    · exact heq ▸ hallowed
    · exact h.allowed t (by simp [heq, ht])

theorem accrueResidual_swept {rest : List Address} (hs : Ready s) :
    Ends (Sweeping s (token :: rest)) Expected (accrueResidual token) fun _ =>
      Sweeping s rest := by
  refine .get_bind fun s₁ hs₁ => ?_
  have hbalance : s₁.vault.balanceOf token = s.vault.balanceOf token := by
    rw [hs₁.balance, if_pos List.mem_cons_self]
  have hnonneg := hs.vault token
  dsimp only
  rw [hbalance, hs₁.credited]
  refine .ite (fun hle => .pure ?_) fun _ => ?_
  · -- nothing is left of the token
    rintro _ rfl
    have hzero : s.vault.balanceOf token = 0 := le_antisymm hle hnonneg
    refine hs₁.next rfl (fun t => ?_) (fun _ => rfl) (fun k => ?_) ?_
    · rw [hzero, single_zero, sub_zero]
    · rw [hzero, ite_self, add_zero]
    · rw [hzero]
      exact residualAllowance_nonneg _
  · refine .bind (.require fun _ => nofun) fun _ => .start fun s₂ hs₂ => ?_
    obtain ⟨rfl, hallowed⟩ := hs₂
    have hvault : 0 ≤ s₂.vault.balanceOf token := hbalance ▸ hnonneg
    refine .bind (vaultWithdraw_enters hvault) fun _ => .get_bind fun s₃ hs₃ => ?_
    obtain ⟨-, -, hwithdraw⟩ := hs₃
    refine .bind (Q := fun store s' => s' = s₃ ∧ s₃.store.accumulateFee (.adminFee token)
      (s.vault.balanceOf token) = .ok store) (.lift (fun store hstore s' hs' => ⟨hs', hstore⟩)
        fun e he => accumulateFee_expected hnonneg he) fun store => ?_
    refine .set ?_
    rintro _ ⟨rfl, hstore⟩
    refine hs₁.next hwithdraw.ledger (fun t => ?_) (fun t => ?_) (fun k => ?_) hallowed
    · dsimp only
      rw [hwithdraw.vault, single_neg]
      rfl
    · dsimp only
      rw [hwithdraw.credited, single_zero, add_zero]
    · dsimp only
      rw [accumulateFee_posts hstore, hwithdraw.store]

/-- **Residuals.** What is left of each token is within its allowance, and all of it is posted to
the admin's bucket of that token. -/
theorem accrueResidualAsRevenue_swept (hs : Ready s) :
    Ends (· = s) Expected accrueResidualAsRevenue fun _ => Sweeping s [] := by
  refine .get_bind fun s₁ hs₁ => ?_
  subst hs₁
  refine Ends.pre (Ends.forM (P := Sweeping s₁) fun _ _ _ => accrueResidual_swept hs) ?_
  rintro _ rfl
  exact .start

end Lending.SwapAggregator
