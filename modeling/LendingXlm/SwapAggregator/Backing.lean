import LendingXlm.SwapAggregator.Encoding
import LendingXlm.SwapAggregator.Liquidity

/-!
# The router backs its fees

`run`, the claims and the sweep keep the balances above the reserve. `World.run_backed` carries
this through any sequence of calls; `fees_stay_backed` is the result.
-/

namespace Lending.SwapAggregator

open Fallible Transaction

variable {router : Address} {venues : Venues router} {base : Storage} {extra : Address → Int}
  {token : Address} {amount : Int}

/-! ## Fees -/

/-- What is outside the vault is reserved. -/
theorem Solid.accrue {s : Run} {store : Storage} (h : Solid router base (single token amount) s)
    (ha : Accrued s.store store token amount) : Solid router base 0 { s with store } where
  balanced := ha.balanced
  grown key := le_trans (h.grown key) (ha.grown key)
  covered t := by
    have hcovered := h.covered t
    rw [ha.reserved, Pi.zero_apply]
    dsimp only
    omega
  vault := h.vault
  cache := h.cache

theorem feeAmount_nonneg {balance fee : Int} {feeBps : Nat} (hbalance : 0 ≤ balance)
    (h : feeAmount balance feeBps = .ok fee) : 0 ≤ fee := by
  obtain ⟨product, hproduct, h⟩ := Fallible.bind_ok h
  rw [Fallible.pure_ok_iff] at h
  rw [← h, checkedMul_ok hproduct]
  exact Int.tdiv_nonneg (mul_nonneg hbalance (Int.natCast_nonneg feeBps)) (by decide)

theorem feeAmount_avoids {balance : Int} {feeBps : Nat} :
    Avoids RouterError.internalInvariant (feeAmount balance feeBps) :=
  .bind avoids_checkedMul fun _ _ => .pure

theorem applyActiveFees_keeps {referralId : Nat} {cfg : ReferralConfig} :
    Ends (Solid router base 0) Expected (applyActiveFees token referralId cfg)
      fun _ => Solid router base 0 := by
  refine .get_bind fun s hs => .ite (fun _ => .pure fun _ h => h ▸ hs) fun hpos => ?_
  refine .bind (.require fun _ => nofun) fun _ => ?_
  refine .ite (fun _ => .pure fun _ h => h.1 ▸ hs) fun _ => ?_
  refine .bind (.require fun _ => nofun) fun _ => ?_
  have hnonneg : 0 ≤ s.vault.balanceOf token := (not_le.mp hpos).le
  refine .bind (Q := fun fee s' => s' = s ∧ 0 ≤ fee) (.lift ?_ (expected_of_avoids
    feeAmount_avoids)) fun staticFee => ?_
  · exact fun fee hfee s' hs' => ⟨hs'.1.1, feeAmount_nonneg hnonneg hfee⟩
  refine .bind (Q := fun fee s' => s' = s ∧ 0 ≤ staticFee ∧ 0 ≤ fee) (.lift ?_
    (expected_of_avoids feeAmount_avoids)) fun referralFee => ?_
  · exact fun fee hfee s' hs' => ⟨hs'.1, hs'.2, feeAmount_nonneg hnonneg hfee⟩
  refine .start fun s₁ hs₁ => ?_
  obtain ⟨rfl, hstatic, hreferral⟩ := hs₁
  refine .bind (Q := fun total s' => s' = s₁ ∧ total = staticFee + referralFee) (.lift ?_
    (expected_of_avoids avoids_checkedAdd)) fun total => ?_
  · exact fun total htotal s' hs' => ⟨hs', checkedAdd_ok htotal⟩
  refine .start fun s₂ hs₂ => ?_
  obtain ⟨rfl, rfl⟩ := hs₂
  refine .ite (fun _ => .pure fun _ h => h ▸ hs) fun _ => ?_
  refine .bind (vaultWithdraw_keeps.pre fun _ h => h ▸ hs) fun _ => .get_bind fun s₃ hs₃ => ?_
  refine .bind (Q := fun store s' => s' = s₃ ∧ s₃.store.accumulateSwapFees token referralId
    staticFee referralFee = .ok store) (.lift (fun store hstore s' hs' => ⟨hs', hstore⟩)
      fun e he => accumulateSwapFees_expected hstatic hreferral he) fun store => ?_
  refine .set ?_
  rintro _ ⟨rfl, hstore⟩
  exact hs₃.accrue (accumulateSwapFees_balanced hs₃.balanced hstatic hreferral hstore)

theorem applyFeesOnToken_keeps {referralId : Nat} :
    Ends (Solid router base 0) Expected (applyFeesOnToken token referralId)
      fun _ => Solid router base 0 := by
  refine .ite (fun _ => .pure fun _ h => h) fun _ => .get_bind fun s hs => ?_
  split
  · exact .pure fun _ h => h ▸ hs
  · split
    · exact applyActiveFees_keeps.pre fun _ h => h ▸ hs
    · exact .pure fun _ h => h ▸ hs

theorem accrueResidual_keeps :
    Ends (Solid router base 0) Expected (accrueResidual token) fun _ => Solid router base 0 := by
  refine .get_bind fun s hs => .ite (fun _ => .pure fun _ h => h ▸ hs) fun hpos => ?_
  refine .bind (.require fun _ => nofun) fun _ => ?_
  refine .bind (vaultWithdraw_keeps.pre fun _ h => h.1 ▸ hs) fun _ => .get_bind fun s₁ hs₁ => ?_
  have hnonneg : 0 ≤ s.vault.balanceOf token := (not_le.mp hpos).le
  refine .bind (Q := fun store s' => s' = s₁ ∧ s₁.store.accumulateFee (.adminFee token)
    (s.vault.balanceOf token) = .ok store) (.lift (fun store hstore s' hs' => ⟨hs', hstore⟩)
      fun e he => accumulateFee_expected hnonneg he) fun store => ?_
  refine .set ?_
  rintro _ ⟨rfl, hstore⟩
  exact hs₁.accrue (accumulateFee_balanced hs₁.balanced hnonneg hstore)

theorem accrueResidualAsRevenue_keeps :
    Ends (Solid router base 0) Expected accrueResidualAsRevenue fun _ => Solid router base 0 := by
  refine .get_bind fun s hs => Ends.pre (Ends.forM (P := fun _ => Solid router base 0) ?_)
    fun _ h => h ▸ hs
  exact fun _ _ _ => accrueResidual_keeps

/-! ## Programs -/

theorem resolveAmount_spec {I : Run → Prop} {ctx : Ctx} {mode : Mode} {prev : PrevOutput} :
    Spec I Expected (resolveAmount ctx mode token prev) fun _ => True := by
  refine Ends.get_bind fun s hs => ?_
  cases mode with
  | all => exact .pure fun _ h => ⟨h ▸ hs, trivial⟩
  | prev =>
    cases prev with
    | none => exact .throw nofun
    | some p =>
      refine Ends.pre (?_ : Spec I Expected _ _) fun _ h => h ▸ hs
      exact Spec.ite (fun _ => .throw nofun) fun _ => .pure trivial
  | fixed idx =>
    exact Ends.pre (lift_spec (.orThrow (.inr nofun))) fun _ h => h ▸ hs
  | ppm idx =>
    refine Ends.pre (?_ : Spec I Expected _ _) fun _ h => h ▸ hs
    exact Spec.bind (lift_spec avoids_checkedMul) fun _ _ => .pure trivial

theorem executeSwap_keeps {ctx : Ctx} {hop : SwapHop} {mode : Mode} {prev : PrevOutput} :
    Ends (Solid router base 0) Expected (executeSwap venues ctx hop mode prev)
      fun _ => Solid router base 0 := by
  refine .bind (Ends.post resolveAmount_spec fun _ _ h => h.1) fun amountIn => ?_
  refine .bind ((Ends.require fun _ => nofun).post fun _ _ h => h.1) fun _ => ?_
  refine .bind vaultWithdraw_keeps fun _ => .bind dispatchHop_keeps fun out => ?_
  refine .bind ((Ends.require fun _ => nofun).post fun _ _ h => h.1) fun _ => ?_
  exact .bind vaultDeposit_keeps fun _ => .pure fun _ h => h

theorem asset_ends {P : Run → Prop} {ctx : Ctx} {i : Nat} :
    Ends P Expected (liftM (ctx.asset i) : Router Address) fun _ => P :=
  (Ends.orThrow fun _ => nofun).post fun _ _ h => h.1

theorem executeOp_keeps {ctx : Ctx} {op : Op} {prev : PrevOutput} :
    Ends (Solid router base 0) Expected (executeOp venues ctx op prev)
      fun _ => Solid router base 0 := by
  refine .bind asset_ends fun a => .bind asset_ends fun b => ?_
  cases op.opcode with
  | swap venue => exact .bind asset_ends fun c => executeSwap_keeps
  | burn => exact .bind removeLiquidity_keeps fun _ => .pure fun _ h => h
  | mint =>
    refine .bind ((Ends.orThrow fun _ => nofun).post fun _ _ h => h.1) fun minShares => ?_
    exact .bind addLiquidity_keeps fun _ => .pure fun _ h => h

theorem op_avoids {p : Program} {i : Nat} :
    Avoids RouterError.internalInvariant (p.op i) :=
  .bind (.orThrow (.inr nofun)) fun _ _ => .pure

theorem executeNext_keeps {ctx : Ctx} {prev : PrevOutput} {i : Nat} :
    Ends (Solid router base 0) Expected (executeNext venues ctx prev i)
      fun _ => Solid router base 0 := by
  exact .bind (Ends.lift (fun _ _ _ h => h) (expected_of_avoids op_avoids)) fun op =>
    executeOp_keeps

theorem transferAmountMeasured_keeps {sender : Address} :
    Ends (Solid router base 0) Expected (transferAmountMeasured router token sender amount)
      fun credited => Solid router base (single token credited) := by
  refine .bind (.require fun _ => nofun) fun _ => .bind balance_ends fun pre => ?_
  refine .start fun s hs => ?_
  obtain ⟨⟨hs, -⟩, rfl⟩ := hs
  refine .bind (transfer_ends router) fun _ => .bind balance_ends fun post => ?_
  refine (Ends.orThrow fun _ => nofun).post ?_
  rintro credited s' ⟨⟨hspent, rfl⟩, hcredited⟩
  obtain ⟨-, rfl⟩ := I128.checkedSub_some.mp hcredited
  refine ⟨hspent.store ▸ hs.balanced, hspent.store ▸ hs.grown, fun t => ?_,
    hspent.vault ▸ hs.vault, ?_⟩
  · have hcovered := hs.covered t
    have hledger := hspent.ledger t
    rw [hspent.store, hspent.vault]
    rw [Pi.zero_apply] at hcovered
    by_cases ht : t = token
    · subst ht
      rw [single_self]
      omega
    · rw [single_ne _ ht] at hledger ⊢
      omega
  · unfold CacheNodup
    rw [hspent.cache]
    exact hs.cache

theorem validatePrev_avoids {p : Program} {i idxB : Nat} :
    Avoids RouterError.internalInvariant (p.validatePrev i idxB) := by
  refine .bind (.require nofun) fun _ _ => .bind ?_ fun output _ => .require nofun
  unfold Program.produced
  split
  · exact .pure
  · exact .pure
  · exact nofun

theorem validateOp_avoids {p : Program} {assets : List Address} {amountsLen weightCount i : Nat} :
    Avoids RouterError.internalInvariant (p.validateOp assets amountsLen weightCount i) := by
  have hmode : ∀ mode, Avoids RouterError.internalInvariant
      (Program.validateMode mode amountsLen weightCount) := by
    intro mode
    cases mode with
    | fixed idx => exact .require nofun
    | ppm idx => exact .require nofun
    | all => exact .pure
    | prev => exact .pure
  have hoperands : ∀ op, Avoids RouterError.internalInvariant
      (Program.validateOperands assets amountsLen op) := by
    intro op
    refine .bind (.require nofun) fun _ _ => ?_
    cases op.opcode with
    | swap venue => exact .bind (.require nofun) fun _ _ => .require nofun
    | burn => exact .bind (.require nofun) fun _ _ => .require nofun
    | mint => exact .bind (.require nofun) fun _ _ => .require nofun
  refine .bind op_avoids fun op _ => ?_
  split
  · exact .bind validatePrev_avoids fun _ _ => .bind (hmode _) fun _ _ => hoperands op
  · exact .bind (hmode _) fun _ _ => hoperands op

theorem validate_avoids {p : Program} {assets : List Address} {amountsLen weightCount : Nat} :
    Avoids RouterError.internalInvariant (p.validate assets amountsLen weightCount) := by
  refine .bind (.forM fun _ => validateOp_avoids) fun _ _ => .forM fun i => ?_
  refine .bind ?_ fun _ _ => ?_
  · exact .require nofun
  · exact .require nofun

theorem decode_avoids {ops : List UInt8} {assets : List Address} {amountsLen : Nat} :
    Avoids RouterError.internalInvariant (Program.decode ops assets amountsLen) := by
  refine .bind (.require nofun) fun _ _ => .bind (.require nofun) fun _ _ => ?_
  refine .bind (.require nofun) fun _ _ => .bind (.require nofun) fun _ _ => ?_
  refine .bind (.require nofun) fun _ _ => .bind (.require nofun) fun _ _ => ?_
  exact .bind (.require nofun) fun _ _ => .bind validate_avoids fun _ _ => .pure

/-- **Strategies.** A run ends with the balances covering the reserve, and no bucket shrunk. -/
theorem run_keeps {sender : Address} {totalIn : Int} {payload : StrategyPayload} :
    Ends (Solid router base 0) Expected (run venues sender totalIn payload)
      fun _ => Solid router base 0 := by
  refine .bind ((Ends.require fun _ => nofun).post fun _ _ h => h.1) fun _ => ?_
  refine .bind (Ends.lift (fun _ _ _ h => h) (expected_of_avoids decode_avoids)) fun program => ?_
  refine .bind asset_ends fun inputToken => .bind asset_ends fun outputToken => ?_
  refine .bind ((Ends.orThrow fun _ => nofun).post fun _ _ h => h.1) fun totalMinOut => ?_
  refine .bind ((Ends.require fun _ => nofun).post fun _ _ h => h.1) fun _ => ?_
  refine .bind transferAmountMeasured_keeps fun creditedIn => ?_
  refine .bind vaultDeposit_keeps fun _ => .get_bind fun s hs => ?_
  have hpayout : Ends (Solid router base 0) Expected (do
      let totalOut := (← get).vault.balanceOf outputToken
      require (totalMinOut ≤ totalOut) RouterError.slippageExceeded
      vaultWithdraw outputToken totalOut
      transfer outputToken router sender totalOut
      accrueResidualAsRevenue
      return totalOut : Router Int) fun _ => Solid router base 0 := by
    refine .get_bind fun s hs => .bind (.require fun _ => nofun) fun _ => ?_
    refine .bind (vaultWithdraw_keeps.pre fun _ h => h.1 ▸ hs) fun _ => ?_
    refine .bind transfer_keeps fun _ => .bind accrueResidualAsRevenue_keeps fun _ => ?_
    exact .pure fun _ h => h
  have hprogram : Ends (Solid router base 0) Expected
      ((List.range program.opCount).foldlM (executeNext venues
        ⟨payload.assets, payload.amounts, program⟩) none) fun _ => Solid router base 0 :=
    Ends.foldlM (P := fun _ _ => Solid router base 0) (fun _ _ _ _ => executeNext_keeps) none
  refine Ends.pre (?_ : Ends (Solid router base 0) Expected _ _) fun _ h => h ▸ hs
  refine .ite (fun _ => .bind applyFeesOnToken_keeps fun _ => ?_) fun _ => ?_
  · refine .bind hprogram fun _ => .ite (fun _ => ?_) fun _ => hpayout
    exact .bind applyFeesOnToken_keeps fun _ => hpayout
  · refine .bind hprogram fun _ => .ite (fun _ => ?_) fun _ => hpayout
    exact .bind applyFeesOnToken_keeps fun _ => hpayout

/-! ## Claims and sweeps -/

/-- A claim pays what it released. -/
theorem claimFee_keeps {recipient : Address} {referral : Option Nat} :
    Ends (Solid router .new 0) Expected (claimFee router recipient referral token)
      fun _ => Solid router .new 0 := by
  refine .get_bind fun s hs => ?_
  obtain ⟨store, htake, hbalanced, hreserved⟩ :=
    @takeFeeBucket_balanced _ (feeBucketKey referral token) hs.balanced
  have htoken : (feeBucketKey referral token).token = token := by
    cases referral <;> rfl
  rw [htake]
  set amount := s.store.feeBalance (feeBucketKey referral token) with hamount
  have hreleased : Solid router .new (single token amount) { s with store } := by
    refine ⟨hbalanced, fun key => ?_, fun t => ?_, hs.vault, hs.cache⟩
    · cases key <;> exact hbalanced.nonneg _
    · have hcovered := hs.covered t
      rw [htoken] at hreserved
      rw [Pi.zero_apply] at hcovered
      rw [hreserved]
      dsimp only
      omega
  refine .bind (Q := fun r s' => s' = s ∧ r = (store, amount)) (.lift ?_ nofun) fun r => ?_
  · rintro _ ⟨⟩ _ rfl
    exact ⟨rfl, rfl⟩
  refine .start fun s₁ hs₁ => ?_
  obtain ⟨rfl, rfl⟩ := hs₁
  refine .bind (Q := fun _ => Solid router .new (single token amount))
    (.set fun _ _ => hreleased) fun _ => ?_
  refine .ite (fun _ => transfer_keeps) fun hpos => .pure fun s' hs' => ?_
  have hzero : amount = 0 := le_antisymm (not_lt.mp hpos) (hs.balanced.nonneg _)
  have hextra : single token amount = 0 := by
    rw [hzero]
    funext t
    exact single_zero token t
  exact hextra ▸ hs'

theorem claimFeeBucket_keeps {recipient : Address} {tokens : List Address}
    {referral : Option Nat} :
    Ends (Solid router .new 0) Expected (claimFeeBucket router recipient tokens referral)
      fun _ => Solid router .new 0 :=
  Ends.forM (P := fun _ => Solid router .new 0) fun _ _ _ => claimFee_keeps

/-- A sweep pays what the reserve leaves, and the vault is empty. -/
theorem sweepToken_keeps {recipient : Address} :
    Ends (fun s => Solid router base 0 s ∧ s.vault = .new) Expected
      (sweepToken router recipient token) fun _ s => Solid router base 0 s ∧ s.vault = .new := by
  refine .get_bind fun s hs => .ite (fun hlt => ?_) fun _ => .pure fun _ h => h ▸ hs
  obtain ⟨hs, hvault⟩ := hs
  refine (transfer_ends router).post fun _ s' hspent => ⟨?_, hspent.vault.trans hvault⟩
  refine ⟨hspent.store ▸ hs.balanced, hspent.store ▸ hs.grown, fun t => ?_,
    hspent.vault ▸ hs.vault, ?_⟩
  · have hcovered := hs.covered t
    have hledger := hspent.ledger t
    rw [hspent.store, hspent.vault]
    by_cases ht : t = token
    · subst ht
      rw [single_self] at hledger
      have hempty : s.vault.balanceOf t = 0 := by
        rw [hvault]
        rfl
      rw [Pi.zero_apply]
      omega
    · rw [single_ne _ ht] at hledger
      omega
  · unfold CacheNodup
    rw [hspent.cache]
    exact hs.cache

theorem sweepBalance_keeps {recipient : Address} {tokens : List Address} :
    Ends (fun s => Solid router base 0 s ∧ s.vault = .new) Expected
      (sweepBalance router recipient tokens) fun _ s => Solid router base 0 s ∧ s.vault = .new :=
  Ends.forM (P := fun _ s => Solid router base 0 s ∧ s.vault = .new) fun _ _ _ => sweepToken_keeps

/-! ## Calls -/

/-- The balances cover the reserve, which is the sum of the fee buckets. -/
structure World.Backed (router : Address) (w : World) : Prop where
  balanced : w.store.Balanced
  covered : ∀ t, w.store.reservedFeeBalance t ≤ w.ledger.balance t router

theorem World.Backed.start {w : World} (h : w.Backed router)
    (hbase : ∀ key, base.feeBalance key ≤ w.store.feeBalance key) :
    Solid router base 0 (.start w) where
  balanced := h.balanced
  grown := hbase
  covered t := by
    have hcovered := h.covered t
    have hvault : Vault.new.balanceOf t = 0 := rfl
    rw [Pi.zero_apply]
    simp only [Run.start, hvault]
    omega
  vault _ := le_refl 0
  cache _ _ h := by simp [Run.start] at h

theorem Solid.backed {s : Run} (h : Solid router base 0 s) :
    World.Backed router ⟨s.store, s.ledger⟩ where
  balanced := h.balanced
  covered t := by
    have hcovered := h.covered t
    have hvault := h.vault t
    rw [Pi.zero_apply] at hcovered
    dsimp only
    omega

/-- The claims of fees. -/
def Call.claimsFees : Call router → Bool
  | claimAdminFees _ _ => true
  | claimReferralFees _ _ => true
  | _ => false

/-- A configuration step: it leaves the fees alone, and finds nothing broken. -/
structure Configures (f : Storage → Except RouterError Storage) : Prop where
  avoids : ∀ s, Avoids RouterError.internalInvariant (f s)
  fee : ∀ s s', f s = .ok s' → s'.feeBalance = s.feeBalance
  buckets : ∀ s s', f s = .ok s' → s'.buckets = s.buckets
  reserved : ∀ s s', f s = .ok s' → s'.reservedFeeBalance = s.reservedFeeBalance

theorem Configures.keeps {f : Storage → Except RouterError Storage} (hf : Configures f) :
    Ends (Solid router base 0) Expected (modifyStore f) fun _ => Solid router base 0 := by
  refine .get_bind fun s hs => ?_
  refine .bind (Q := fun store s' => s' = s ∧ f s.store = .ok store)
    (.lift (fun store hstore s' hs' => ⟨hs', hstore⟩) (expected_of_avoids (hf.avoids _)))
    fun store => ?_
  refine .set ?_
  rintro _ ⟨rfl, hstore⟩
  refine ⟨⟨fun t => ?_, fun key => ?_⟩, fun key => ?_, fun t => ?_, hs.vault, hs.cache⟩
  · rw [hf.reserved _ _ hstore, hf.buckets _ _ hstore]
    exact hs.balanced.total t
  · rw [hf.fee _ _ hstore]
    exact hs.balanced.nonneg key
  · rw [hf.fee _ _ hstore]
    exact hs.grown key
  · rw [hf.reserved _ _ hstore]
    exact hs.covered t

/-- A step that writes other fields, where it writes. -/
theorem Configures.of_update {f : Storage → Except RouterError Storage}
    (havoids : ∀ s, Avoids RouterError.internalInvariant (f s))
    (hf : ∀ s s', f s = .ok s' → s'.adminFee = s.adminFee ∧ s'.referralFee = s.referralFee ∧
      s'.reservedTotal = s.reservedTotal) : Configures f := by
  have hfee : ∀ s s', f s = .ok s' → s'.feeBalance = s.feeBalance := by
    intro s s' h
    obtain ⟨hadmin, hreferral, -⟩ := hf s s' h
    funext key
    cases key <;> simp only [Storage.feeBalance, hadmin, hreferral]
  refine ⟨havoids, hfee, fun s s' h => ?_, fun s s' h => ?_⟩
  · obtain ⟨-, hreferral, -⟩ := hf s s' h
    funext t
    simp only [Storage.buckets, hfee s s' h, hreferral]
  · obtain ⟨-, -, hreserved⟩ := hf s s' h
    funext t
    simp only [Storage.reservedFeeBalance, hreserved]

theorem setStaticFee_configures {feeBps : Nat} : Configures (setStaticFee feeBps) := by
  refine .of_update (fun s => ?_) fun s s' h => ?_
  · refine .bind ?_ fun _ _ => .pure
    exact .require nofun
  · obtain ⟨_, -, h⟩ := Fallible.bind_ok h
    cases h
    exact ⟨rfl, rfl, rfl⟩

theorem addToWhitelist_configures {token : Address} : Configures (addToWhitelist token) := by
  refine .of_update (fun s => ?_) fun s s' h => ?_
  · unfold addToWhitelist
    split <;> exact .pure
  · unfold addToWhitelist at h
    split at h <;> cases h <;> exact ⟨rfl, rfl, rfl⟩

theorem removeFromWhitelist_configures {token : Address} :
    Configures (removeFromWhitelist token) := by
  refine .of_update (fun s => ?_) fun s s' h => ?_
  · unfold removeFromWhitelist
    split <;> exact .pure
  · unfold removeFromWhitelist at h
    split at h <;> cases h <;> exact ⟨rfl, rfl, rfl⟩

theorem addReferral_configures {owner : Address} {feeBps : Nat} :
    Configures (addReferral owner feeBps) := by
  refine .of_update (fun s => ?_) fun s s' h => ?_
  · refine .bind ?_ fun _ _ => .bind ?_ fun _ _ => .pure
    · exact .require nofun
    · exact .require nofun
  · obtain ⟨_, -, h⟩ := Fallible.bind_ok h
    obtain ⟨_, -, h⟩ := Fallible.bind_ok h
    cases h
    exact ⟨rfl, rfl, rfl⟩

theorem loadReferral_avoids {s : Storage} {id : Nat} :
    Avoids RouterError.internalInvariant (loadReferral s id) :=
  .orThrow (.inr nofun)

theorem setReferralFee_configures {id feeBps : Nat} : Configures (setReferralFee id feeBps) := by
  refine .of_update (fun s => ?_) fun s s' h => ?_
  · refine .bind ?_ fun _ _ => .bind loadReferral_avoids fun _ _ => .pure
    exact .require nofun
  · obtain ⟨_, -, h⟩ := Fallible.bind_ok h
    obtain ⟨_, -, h⟩ := Fallible.bind_ok h
    cases h
    exact ⟨rfl, rfl, rfl⟩

theorem setReferralActive_configures {id : Nat} {active : Bool} :
    Configures (setReferralActive id active) := by
  refine .of_update (fun s => .bind loadReferral_avoids fun _ _ => .pure) fun s s' h => ?_
  obtain ⟨_, -, h⟩ := Fallible.bind_ok h
  cases h
  exact ⟨rfl, rfl, rfl⟩

theorem setReferralOwner_configures {id : Nat} {newOwner : Address} :
    Configures (setReferralOwner id newOwner) := by
  refine .of_update (fun s => .bind loadReferral_avoids fun _ _ => .pure) fun s s' h => ?_
  obtain ⟨_, -, h⟩ := Fallible.bind_ok h
  cases h
  exact ⟨rfl, rfl, rfl⟩

/-- A call that claims nothing leaves every bucket at least as full. -/
theorem body_keeps {call : Call router} (hclaim : call.claimsFees = false) :
    Ends (fun s => Solid router base 0 s ∧ s.vault = .new) Expected call.body
      fun _ => Solid router base 0 := by
  cases call with
  | setStaticFee feeBps => exact setStaticFee_configures.keeps.pre fun _ h => h.1
  | addToWhitelist token => exact addToWhitelist_configures.keeps.pre fun _ h => h.1
  | removeFromWhitelist token => exact removeFromWhitelist_configures.keeps.pre fun _ h => h.1
  | addReferral owner feeBps => exact addReferral_configures.keeps.pre fun _ h => h.1
  | setReferralFee id feeBps => exact setReferralFee_configures.keeps.pre fun _ h => h.1
  | setReferralActive id active => exact setReferralActive_configures.keeps.pre fun _ h => h.1
  | setReferralOwner id newOwner => exact setReferralOwner_configures.keeps.pre fun _ h => h.1
  | claimAdminFees recipient tokens => cases hclaim
  | claimReferralFees id tokens => cases hclaim
  | sweepBalance recipient tokens => exact sweepBalance_keeps.post fun _ _ h => h.1
  | executeStrategy venues sender totalIn payload =>
    exact .bind (run_keeps.pre fun _ h => h.1) fun _ => .pure fun _ h => h

theorem claim_keeps {call : Call router} (hclaim : call.claimsFees = true) :
    Ends (Solid router .new 0) Expected call.body fun _ => Solid router .new 0 := by
  cases call with
  | claimAdminFees recipient tokens => exact claimFeeBucket_keeps
  | claimReferralFees id tokens =>
    refine .get_bind fun s hs => .bind (.lift (fun _ _ s' hs' => ?_)
      (expected_of_avoids loadReferral_avoids)) fun cfg => claimFeeBucket_keeps
    exact hs' ▸ hs
  | _ => cases hclaim

/-- A call on a backed world either returns a backed world or traps for a reason of its own. -/
theorem Call.apply_backed {w : World} (h : w.Backed router) (call : Call router) :
    match call.apply w with
    | .ok w' => w'.Backed router ∧
      (call.claimsFees = false → ∀ key, w.store.feeBalance key ≤ w'.store.feeBalance key)
    | .error e => Expected e := by
  unfold Call.apply
  cases hclaim : call.claimsFees with
  | true =>
    have hbody := claim_keeps hclaim _ (h.start fun key => ?_)
    · cases hrun : call.body (.start w) with
      | ok a s =>
        rw [hrun] at hbody
        exact ⟨hbody.backed, nofun⟩
      | error e s =>
        rw [hrun] at hbody
        exact hbody
    · have hnonneg := h.balanced.nonneg key
      cases key <;> exact hnonneg
  | false =>
    have hbody := body_keeps hclaim _ ⟨h.start fun _ => le_refl _, rfl⟩
    cases hrun : call.body (.start w) with
    | ok a s =>
      rw [hrun] at hbody
      exact ⟨hbody.backed, fun _ => hbody.grown⟩
    | error e s =>
      rw [hrun] at hbody
      exact hbody

theorem World.step_backed {w : World} (h : w.Backed router) (event : Event router) :
    (w.step event).Backed router := by
  cases event with
  | call call =>
    have hcall := call.apply_backed h
    simp only [World.step]
    cases happly : call.apply w with
    | ok w' =>
      rw [happly] at hcall
      exact hcall.1
    | error e => exact h
  | outside change keeps =>
    exact ⟨h.balanced, fun t => (h.covered t).trans (keeps w.ledger t)⟩

theorem World.run_backed (ledger : Ledger) (events : List (Event router)) :
    (World.run ledger events).Backed router := by
  have hnew : World.Backed router ⟨.new, ledger⟩ := by
    refine ⟨⟨fun t => ?_, fun key => ?_⟩, fun t => ledger.nonneg t router⟩
    · simp [Storage.new, Storage.reservedFeeBalance, Storage.buckets, Storage.feeBalance]
    · cases key <;> simp [Storage.new, Storage.feeBalance]
  unfold World.run
  generalize (⟨.new, ledger⟩ : World) = w at hnew
  induction events generalizing w with
  | nil => exact hnew
  | cons event events ih => exact ih _ (World.step_backed hnew event)

/-- **Fee backing.** After any events the reserve of each token is the sum of its fee buckets and
the router's balance covers it; no call finds the invariant broken; and only a claim takes from a
bucket. -/
theorem fees_stay_backed (router : Address) (ledger : Ledger) (events : List (Event router)) :
    let w := World.run ledger events
    (∀ t, w.store.reservedFeeBalance t =
      w.store.feeBalance (.adminFee t) + (w.store.referralFee t).sumBy fun _ v => v) ∧
    (∀ t, w.store.reservedFeeBalance t ≤ w.ledger.balance t router) ∧
    ∀ call : Call router,
      call.apply w ≠ .error .internalInvariant ∧
      ∀ w', call.apply w = .ok w' →
        (∀ t, w'.store.reservedFeeBalance t ≤ w'.ledger.balance t router) ∧
        (call.claimsFees = false → ∀ key, w.store.feeBalance key ≤ w'.store.feeBalance key) := by
  intro w
  have hw : w.Backed router := World.run_backed ledger events
  refine ⟨hw.balanced.total, hw.covered, fun call => ⟨fun herr => ?_, fun w' hok => ?_⟩⟩
  · have hcall := call.apply_backed hw
    rw [herr] at hcall
    exact hcall rfl
  · have hcall := call.apply_backed hw
    rw [hok] at hcall
    exact ⟨hcall.1.covered, hcall.2⟩

/-! ### A run -/

/-- Pools that pay one for one: pool 9 token 2, pool 8 token 1. -/
def parPools (router : Address) : Venues router where
  invoke _ grants call l :=
    match call with
    | .phoenixSwap pool tokenIn amountIn =>
      if grants = [⟨tokenIn, amountIn⟩] then do
        let l ← l.transfer tokenIn router pool amountIn
        let l ← l.transfer (pool - 7) pool router amountIn
        return ((), l)
      else none
    | _ => none
  takes_granted := by
    intro _ grants call l reply l' h t
    cases call with
    | phoenixSwap pool tokenIn amountIn =>
      dsimp only at h
      split at h
      · rename_i hgrants
        obtain ⟨l₁, htaken, h⟩ := Option.bind_eq_some_iff.mp h
        obtain ⟨l₂, hpaid, h⟩ := Option.bind_eq_some_iff.mp h
        obtain rfl : l₂ = l' := congrArg Prod.snd (Option.some.inj h)
        have h1 := Ledger.transfer_loses htaken t router
        have h2 := Ledger.transfer_gains hpaid t
        have hgranted : granted grants t = single tokenIn amountIn t := by
          rw [hgrants]
          simp [granted, single, eq_comm]
        omega
      · cases h
    | _ => cases h

/-- Sender 3 and pool 8 have token 1, pool 9 has token 2. -/
def parLedger : Ledger where
  balance := fun token holder =>
    if token = 1 ∧ (holder = 3 ∨ holder = 8) ∨ token = 2 ∧ holder = 9 then 1_000_000 else 0
  nonneg := fun token holder => by
    split
    · decide
    · exact le_refl 0

def parPayload : StrategyPayload where
  amounts := [90_000]
  assets := [1, 2, 9]
  ops := Source.program ⟨0, 1, 0, 1, [⟨2, 0, 2, 0, 1⟩], []⟩

/-- A static fee of 10 basis points, and a referral that takes 20. -/
def parEvents : List (Event 0) := [.call (.setStaticFee 10), .call (.addReferral 5 20)]

def parWorld : World := World.run parLedger parEvents

def swapEvents : List (Event 0) :=
  parEvents ++ [.call (.executeStrategy (parPools 0) 3 100_000 parPayload)]

/-- A swap of a hundred thousand books its fee, and the admin claims its part. -/
theorem fees_stay_backed_sample :
    let w := World.run parLedger swapEvents
    w.store.reservedFeeBalance 1 = 300 ∧ 300 ≤ w.ledger.balance 1 0 ∧
      ∃ w', (Call.claimAdminFees 6 [1] : Call 0).apply w = .ok w' ∧
        w'.store.feeBalance (.adminFee 1) = 0 ∧ w'.store.reservedFeeBalance 1 = 200 ∧
        200 ≤ w'.ledger.balance 1 0 := by
  have hbooked : (World.run parLedger swapEvents).store.reservedFeeBalance 1 = 300 := by
    decide +kernel
  have hclaims : ((Call.claimAdminFees 6 [1] : Call 0).apply (World.run parLedger swapEvents)
      ).toOption.map (fun w' => (w'.store.feeBalance (.adminFee 1),
        w'.store.reservedFeeBalance 1)) = some (0, 200) := by
    decide +kernel
  have hbacked := fees_stay_backed 0 parLedger swapEvents
  generalize World.run parLedger swapEvents = w at hbooked hclaims hbacked ⊢
  obtain ⟨-, hcovered, hcalls⟩ := hbacked
  refine ⟨hbooked, hbooked ▸ hcovered 1, ?_⟩
  cases hclaim : (Call.claimAdminFees 6 [1] : Call 0).apply w with
  | error e =>
    rw [hclaim] at hclaims
    cases hclaims
  | ok w' =>
    rw [hclaim] at hclaims
    obtain ⟨hadmin, hreserved⟩ := Prod.mk.inj (Option.some.inj hclaims)
    exact ⟨w', rfl, hadmin, hreserved, hreserved ▸ ((hcalls _).2 w' hclaim).1 1⟩

end Lending.SwapAggregator
