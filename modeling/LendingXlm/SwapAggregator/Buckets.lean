import LendingXlm.SwapAggregator.Contract

/-!
# Fee buckets and their reserve

`Storage.Balanced`: the reserved total of each token is the sum of the token's fee buckets, none of
which is negative.

* `creditBucket_spec`, `reserve_spec`: either alone breaks the balance by its amount;
* `accumulateFee_balanced`, `accumulateSwapFees_balanced`: together they keep it, and no bucket
  shrinks;
* `takeFeeBucket_balanced`: a bucket can always be taken, and what is released is what it held.

A computation on a balanced storage never reports `internalInvariant`.
-/

namespace Lending.SwapAggregator

open Fallible

/-- The errors of a call that finds its invariants intact. -/
def Expected (e : RouterError) : Prop := e ≠ .internalInvariant

/-- The sum of the fee buckets of a token. -/
def Storage.buckets (s : Storage) (token : Address) : Int :=
  s.feeBalance (.adminFee token) + (s.referralFee token).sumBy fun _ v => v

structure Storage.Balanced (s : Storage) : Prop where
  total : ∀ token, s.reservedFeeBalance token = s.buckets token
  nonneg : ∀ key, 0 ≤ s.feeBalance key

/-- `amount` at one token, nothing elsewhere. -/
def single (token : Address) (amount : Int) (t : Address) : Int := if t = token then amount else 0

@[simp] theorem single_self (token : Address) (amount : Int) :
    single token amount token = amount := if_pos rfl

theorem single_ne {token t : Address} (amount : Int) (h : t ≠ token) :
    single token amount t = 0 := if_neg h

@[simp] theorem single_zero (token t : Address) : single token 0 t = 0 := by
  unfold single
  split <;> rfl

/-! ## Transfers -/

theorem Ledger.transfer_loses {l l' : Ledger} {token sender recipient : Address} {amount : Int}
    (h : l.transfer token sender recipient amount = some l') (t holder : Address) :
    l.balance t holder - single token amount t ≤ l'.balance t holder := by
  unfold Ledger.transfer at h
  split at h
  · rename_i hamount
    rw [Option.some.injEq] at h
    subst h
    by_cases ht : t = token
    · subst ht
      rw [single_self]
      dsimp only
      split_ifs <;> omega
    · simp [single_ne _ ht, ht]
  · cases h

theorem Ledger.transfer_gains {l l' : Ledger} {token sender recipient : Address} {amount : Int}
    (h : l.transfer token sender recipient amount = some l') (t : Address) :
    l.balance t recipient ≤ l'.balance t recipient := by
  unfold Ledger.transfer at h
  split at h
  · rename_i hamount
    rw [Option.some.injEq] at h
    subst h
    by_cases ht : t = token
    · subst ht
      dsimp only
      split_ifs <;> simp_all
    · simp [ht]
  · cases h

variable {s s' : Storage} {key : FeeKey} {amount : Int}

/-! ## Writes -/

theorem weight_getD {m : SortedMap Nat Int} {id : Nat} :
    m.weight (fun _ v => v) id = (m.get? id).getD 0 := by
  unfold SortedMap.weight
  cases m.get? id <;> rfl

@[simp] theorem feeBalance_setFee_self : (s.setFee key amount).feeBalance key = amount := by
  cases key <;> simp [Storage.setFee, Storage.feeBalance]

theorem feeBalance_setFee_ne {k : FeeKey} (h : k ≠ key) :
    (s.setFee key amount).feeBalance k = s.feeBalance k := by
  cases key with
  | adminFee token =>
    cases k with
    | adminFee t =>
      have ht : t ≠ token := fun heq => h (by rw [heq])
      simp only [Storage.setFee, Storage.feeBalance, Function.update_of_ne ht]
    | referralFee id t => rfl
  | referralFee id token =>
    cases k with
    | adminFee t => rfl
    | referralFee id' t =>
      by_cases ht : t = token
      · subst ht
        have hid : id' ≠ id := fun heq => h (by rw [heq])
        simp only [Storage.setFee, Storage.feeBalance, Function.update_self,
          SortedMap.get?_set_ne _ _ hid]
      · simp only [Storage.setFee, Storage.feeBalance, Function.update_of_ne ht]

/-- Writing a bucket moves the sum of its token by the difference. -/
theorem buckets_setFee (t : Address) : (s.setFee key amount).buckets t =
    s.buckets t + single key.token (amount - s.feeBalance key) t := by
  unfold Storage.buckets
  cases key with
  | adminFee token =>
    by_cases ht : t = token
    · subst ht
      simp only [Storage.setFee, Storage.feeBalance, Function.update_self, FeeKey.token,
        single_self, Option.getD_some]
      ring
    · rw [FeeKey.token, single_ne _ ht]
      simp only [Storage.setFee, Storage.feeBalance, Function.update_of_ne ht, add_zero]
  | referralFee id token =>
    by_cases ht : t = token
    · subst ht
      simp only [Storage.setFee, Storage.feeBalance, Function.update_self, FeeKey.token,
        single_self, SortedMap.sumBy_set, weight_getD]
      ring
    · rw [FeeKey.token, single_ne _ ht]
      simp only [Storage.setFee, Storage.feeBalance, Function.update_of_ne ht, add_zero]

/-- An absent bucket reads as zero. -/
theorem feeBalance_removeFee (k : FeeKey) :
    (s.removeFee key).feeBalance k = if k = key then 0 else s.feeBalance k := by
  cases key with
  | adminFee token =>
    cases k with
    | adminFee t =>
      by_cases ht : t = token
      · subst ht
        simp [Storage.removeFee, Storage.feeBalance]
      · simp [Storage.removeFee, Storage.feeBalance, ht]
    | referralFee id t => simp [Storage.removeFee, Storage.feeBalance]
  | referralFee id token =>
    cases k with
    | adminFee t => simp [Storage.removeFee, Storage.feeBalance]
    | referralFee id' t =>
      by_cases ht : t = token
      · subst ht
        by_cases hid : id' = id
        · subst hid
          simp [Storage.removeFee, Storage.feeBalance]
        · simp [Storage.removeFee, Storage.feeBalance, SortedMap.get?_erase_ne _ hid, hid]
      · simp [Storage.removeFee, Storage.feeBalance, ht]

theorem buckets_removeFee (t : Address) : (s.removeFee key).buckets t =
    s.buckets t - single key.token (s.feeBalance key) t := by
  unfold Storage.buckets
  cases key with
  | adminFee token =>
    by_cases ht : t = token
    · subst ht
      simp only [Storage.removeFee, Storage.feeBalance, Function.update_self, FeeKey.token,
        single_self, Option.getD_none]
      ring
    · rw [FeeKey.token, single_ne _ ht]
      simp only [Storage.removeFee, Storage.feeBalance, Function.update_of_ne ht, sub_zero]
  | referralFee id token =>
    by_cases ht : t = token
    · subst ht
      simp only [Storage.removeFee, Storage.feeBalance, Function.update_self, FeeKey.token,
        single_self, SortedMap.sumBy_erase, weight_getD]
      ring
    · rw [FeeKey.token, single_ne _ ht]
      simp only [Storage.removeFee, Storage.feeBalance, Function.update_of_ne ht, sub_zero]

theorem reserved_setReserved (token t : Address) (o : Option Int) :
    (s.setReserved token o).reservedFeeBalance t =
      if t = token then o.getD 0 else s.reservedFeeBalance t := by
  unfold Storage.setReserved Storage.reservedFeeBalance
  by_cases ht : t = token
  · subst ht
    simp
  · simp [ht]

/-! ## Accumulating -/

/-- `s'` holds `amount` more in the buckets of `token` than `s`, spread over buckets that grew. -/
structure Credited (s s' : Storage) (token : Address) (amount : Int) : Prop where
  grown : ∀ key, s.feeBalance key ≤ s'.feeBalance key
  buckets : ∀ t, s'.buckets t = s.buckets t + single token amount t
  reserved : ∀ t, s'.reservedFeeBalance t = s.reservedFeeBalance t

theorem checkedAdd_ok {a b c : Int} (h : checkedAdd a b = .ok c) : c = a + b := by
  obtain ⟨-, rfl⟩ := I128.checkedAdd_some.mp (orThrow_ok_iff.mp h)
  rfl

theorem checkedAdd_expected {a b : Int} {e : RouterError} (h : checkedAdd a b = .error e) :
    Expected e := by
  obtain ⟨-, rfl⟩ := orThrow_error_iff.mp h
  exact nofun

theorem checkedMul_ok {a b c : Int} (h : checkedMul a b = .ok c) : c = a * b := by
  obtain ⟨-, rfl⟩ := I128.checkedMul_some.mp (orThrow_ok_iff.mp h)
  rfl

theorem creditBucket_spec (hamount : 0 ≤ amount) (h : s.creditBucket key amount = .ok s') :
    Credited s s' key.token amount := by
  simp only [Storage.creditBucket, bind_ok_iff, pure_ok_iff] at h
  obtain ⟨next, hnext, rfl⟩ := h
  rw [checkedAdd_ok hnext]
  refine ⟨fun k => ?_, fun t => ?_, fun t => ?_⟩
  · by_cases hk : k = key
    · subst hk
      rw [feeBalance_setFee_self]
      omega
    · rw [feeBalance_setFee_ne hk]
  · rw [buckets_setFee, add_sub_cancel_left]
  · cases key <;> rfl

theorem creditBucket_expected {e : RouterError} (h : s.creditBucket key amount = .error e) :
    Expected e := by
  rcases bind_error_iff.mp h with h | ⟨_, _, h⟩
  · exact checkedAdd_expected h
  · cases h

theorem Credited.refl (s : Storage) (token : Address) : Credited s s token 0 :=
  ⟨fun _ => le_refl _, fun t => by rw [single_zero, add_zero], fun _ => rfl⟩

theorem Credited.trans {s'' : Storage} {token : Address} {a b : Int} (h : Credited s s' token a)
    (h' : Credited s' s'' token b) : Credited s s'' token (a + b) where
  grown k := le_trans (h.grown k) (h'.grown k)
  buckets t := by
    rw [h'.buckets, h.buckets]
    unfold single
    split <;> ring
  reserved t := by rw [h'.reserved, h.reserved]

theorem reserve_spec {token : Address} (h : s.reserve token amount = .ok s') :
    (∀ key, s'.feeBalance key = s.feeBalance key) ∧ (∀ t, s'.buckets t = s.buckets t) ∧
      ∀ t, s'.reservedFeeBalance t = s.reservedFeeBalance t + single token amount t := by
  obtain ⟨_, hnonneg, h⟩ := bind_ok h
  by_cases hzero : amount = 0
  · subst hzero
    rw [if_pos rfl, pure_ok_iff] at h
    subst h
    exact ⟨fun _ => rfl, fun _ => rfl, fun t => by rw [single_zero, add_zero]⟩
  · simp only [if_neg hzero, bind_ok_iff, pure_ok_iff] at h
    obtain ⟨next, hnext, rfl⟩ := h
    refine ⟨fun k => ?_, fun t => rfl, fun t => ?_⟩
    · cases k <;> rfl
    · rw [reserved_setReserved, checkedAdd_ok hnext]
      unfold single
      split
      · rename_i ht
        rw [ht]
        rfl
      · rw [add_zero]

theorem reserve_expected {token : Address} {e : RouterError} (hamount : 0 ≤ amount)
    (h : s.reserve token amount = .error e) : Expected e := by
  rcases bind_error_iff.mp h with h | ⟨_, _, h⟩
  · exact absurd hamount (require_error_iff.mp h).1
  · split at h
    · cases h
    · rcases bind_error_iff.mp h with h | ⟨_, _, h⟩
      · exact checkedAdd_expected h
      · cases h

/-- What is credited and reserved keeps the storage balanced. -/
structure Accrued (s s' : Storage) (token : Address) (amount : Int) : Prop where
  balanced : s'.Balanced
  grown : ∀ key, s.feeBalance key ≤ s'.feeBalance key
  reserved : ∀ t, s'.reservedFeeBalance t = s.reservedFeeBalance t + single token amount t

theorem Credited.reserve {s'' : Storage} {token : Address} (hs : s.Balanced)
    (h : Credited s s' token amount) (hr : s'.reserve token amount = .ok s'') :
    Accrued s s'' token amount := by
  obtain ⟨hfee, hbuckets, hreserved⟩ := reserve_spec hr
  refine ⟨⟨fun t => ?_, fun k => ?_⟩, fun k => ?_, fun t => ?_⟩
  · rw [hreserved, hbuckets, h.buckets, h.reserved, hs.total]
  · rw [hfee]
    exact le_trans (hs.nonneg k) (h.grown k)
  · rw [hfee]
    exact h.grown k
  · rw [hreserved, h.reserved]

theorem accumulateFee_balanced (hs : s.Balanced) (hamount : 0 ≤ amount)
    (h : s.accumulateFee key amount = .ok s') : Accrued s s' key.token amount := by
  obtain ⟨s₁, hcredit, hreserve⟩ := bind_ok h
  exact (creditBucket_spec hamount hcredit).reserve hs hreserve

theorem accumulateFee_expected {e : RouterError} (hamount : 0 ≤ amount)
    (h : s.accumulateFee key amount = .error e) : Expected e := by
  rcases bind_error_iff.mp h with h | ⟨_, _, h⟩
  · exact creditBucket_expected h
  · exact reserve_expected hamount h

theorem accumulateSwapFee_spec {reserved : Int} {r : Storage × Int} (hamount : 0 ≤ amount)
    (h : s.accumulateSwapFee key amount reserved = .ok r) :
    Credited s r.1 key.token amount ∧ r.2 = reserved + amount := by
  unfold Storage.accumulateSwapFee at h
  by_cases hpos : 0 < amount
  · simp only [if_pos hpos, bind_ok_iff, pure_ok_iff] at h
    obtain ⟨s₁, hcredit, total, htotal, rfl⟩ := h
    exact ⟨creditBucket_spec hamount hcredit, checkedAdd_ok htotal⟩
  · simp only [if_neg hpos, pure_ok_iff] at h
    subst h
    have hzero : amount = 0 := by omega
    subst hzero
    exact ⟨.refl s _, (add_zero _).symm⟩

theorem accumulateSwapFee_expected {reserved : Int} {e : RouterError}
    (h : s.accumulateSwapFee key amount reserved = .error e) : Expected e := by
  unfold Storage.accumulateSwapFee at h
  split at h
  · rcases bind_error_iff.mp h with h | ⟨_, _, h⟩
    · exact creditBucket_expected h
    · rcases bind_error_iff.mp h with h | ⟨_, _, h⟩
      · exact checkedAdd_expected h
      · cases h
  · cases h

theorem accumulateSwapFees_balanced {token : Address} {id : Nat} {staticAmount referralAmount : Int}
    (hs : s.Balanced) (hstatic : 0 ≤ staticAmount) (hreferral : 0 ≤ referralAmount)
    (h : s.accumulateSwapFees token id staticAmount referralAmount = .ok s') :
    Accrued s s' token (staticAmount + referralAmount) := by
  obtain ⟨⟨s₁, r₁⟩, hfirst, h⟩ := bind_ok h
  obtain ⟨⟨s₂, r₂⟩, hsecond, h⟩ := bind_ok h
  obtain ⟨hc₁, hr₁⟩ := accumulateSwapFee_spec hstatic hfirst
  obtain ⟨hc₂, hr₂⟩ := accumulateSwapFee_spec hreferral hsecond
  dsimp only at hr₁ hr₂ h
  rw [hr₂, hr₁, zero_add] at h
  exact (hc₁.trans hc₂).reserve hs h

theorem accumulateSwapFees_expected {token : Address} {id : Nat}
    {staticAmount referralAmount : Int} {e : RouterError} (hstatic : 0 ≤ staticAmount)
    (hreferral : 0 ≤ referralAmount)
    (h : s.accumulateSwapFees token id staticAmount referralAmount = .error e) : Expected e := by
  rcases bind_error_iff.mp h with h | ⟨⟨s₁, r₁⟩, hfirst, h⟩
  · exact accumulateSwapFee_expected h
  · rcases bind_error_iff.mp h with h | ⟨⟨s₂, r₂⟩, hsecond, h⟩
    · exact accumulateSwapFee_expected h
    · obtain ⟨-, hr₁⟩ := accumulateSwapFee_spec hstatic hfirst
      obtain ⟨-, hr₂⟩ := accumulateSwapFee_spec hreferral hsecond
      dsimp only at hr₁ hr₂ h
      exact reserve_expected (by omega) h

/-! ## Claiming -/

/-- A bucket is part of the sum of its token. -/
theorem feeBalance_le_buckets (hnonneg : ∀ k, 0 ≤ s.feeBalance k) :
    s.feeBalance key ≤ s.buckets key.token := by
  have hreferral : ∀ token id v, (s.referralFee token).get? id = some v → 0 ≤ v := by
    intro token id v hv
    have hfee := hnonneg (.referralFee id token)
    simp only [Storage.feeBalance, hv, Option.getD_some] at hfee
    exact hfee
  unfold Storage.buckets
  cases key with
  | adminFee token =>
    have hsum : 0 ≤ (s.referralFee token).sumBy fun _ v => v :=
      SortedMap.sumBy_nonneg fun id v hv => hreferral token id v hv
    simp only [FeeKey.token]
    omega
  | referralFee id token =>
    have hadmin := hnonneg (.adminFee token)
    simp only [FeeKey.token]
    cases hget : (s.referralFee token).get? id with
    | none =>
      have hsum : 0 ≤ (s.referralFee token).sumBy fun _ v => v :=
        SortedMap.sumBy_nonneg fun id v hv => hreferral token id v hv
      have hzero : s.feeBalance (.referralFee id token) = 0 := by
        simp only [Storage.feeBalance, hget, Option.getD_none]
      omega
    | some v =>
      have hle : v ≤ (s.referralFee token).sumBy fun _ v => v :=
        SortedMap.le_sumBy (f := fun _ v => v) (fun id v hv => hreferral token id v hv) hget
      have hval : s.feeBalance (.referralFee id token) = v := by
        simp only [Storage.feeBalance, hget, Option.getD_some]
      omega

/-- **Claims.** From a balanced storage a bucket can always be taken: the release covers it. -/
theorem takeFeeBucket_balanced (hs : s.Balanced) :
    ∃ s', s.takeFeeBucket key = .ok (s', s.feeBalance key) ∧ s'.Balanced ∧
      (∀ t, s'.reservedFeeBalance t =
        s.reservedFeeBalance t - single key.token (s.feeBalance key) t) := by
  unfold Storage.takeFeeBucket
  by_cases hpos : 0 < s.feeBalance key
  · have hreserved : (s.removeFee key).reservedFeeBalance key.token =
        s.reservedFeeBalance key.token := by
      cases key <;> rfl
    have hle : s.feeBalance key ≤ (s.removeFee key).reservedFeeBalance key.token := by
      rw [hreserved, hs.total]
      exact feeBalance_le_buckets hs.nonneg
    simp only [if_pos hpos, Storage.release, require_pos hle, ok_bind]
    have hreleased : ∀ t, (((s.removeFee key).setReserved key.token
        (if (s.removeFee key).reservedFeeBalance key.token - s.feeBalance key = 0 then none
          else some ((s.removeFee key).reservedFeeBalance key.token - s.feeBalance key))
        ).reservedFeeBalance t =
          s.reservedFeeBalance t - single key.token (s.feeBalance key) t) := by
      intro t
      rw [reserved_setReserved, hreserved]
      by_cases ht : t = key.token
      · subst ht
        rw [if_pos rfl, single_self]
        grind
      · rw [if_neg ht, single_ne _ ht, sub_zero]
        cases key <;> rfl
    refine ⟨_, rfl, ⟨fun t => ?_, fun k => ?_⟩, hreleased⟩
    · rw [hreleased, hs.total]
      exact (buckets_removeFee t).symm
    · have hk : ∀ o, ((s.removeFee key).setReserved key.token o).feeBalance k =
          (s.removeFee key).feeBalance k := by
        intro o
        cases k <;> rfl
      rw [hk, feeBalance_removeFee]
      split
      · exact le_refl 0
      · exact hs.nonneg k
  · have hzero : s.feeBalance key = 0 := le_antisymm (not_lt.mp hpos) (hs.nonneg key)
    simp only [if_neg hpos]
    exact ⟨s, rfl, hs, fun t => by rw [hzero, single_zero, sub_zero]⟩

end Lending.SwapAggregator
