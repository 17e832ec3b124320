import LendingXlm.Controller.Conservation
import LendingXlm.Controller.Quotes

/-!
# What a share credit moves

A liquidator who takes shares gets the seized ones less the fee's, and the pool takes these over as
revenue. No token moves, and no share is lost on the way.

* `creditSeizure_credits`: one entry moves its shares so;
* `applyLiquidationShareCredit_credits`: so do all entries, and the pool is handed their fees.
-/

namespace Lending

open Transaction Ctrl Invocation Liquidation

variable {W : Type}

/-! ## Shares of an account -/

theorem Account.Becomes.shares {a b : Account} {side : UsageSide} {market : HubAssetKey}
    {scaled : Int} (hb : a.Becomes side market scaled b) (market' : HubAssetKey) :
    b.shares side market' = if market' = market then scaled else a.shares side market' := by
  split
  · rename_i heq
    rw [heq, hb.shares_self]
  · rename_i hne
    exact hb.shares_ne side market' hne

/-- What a call of the pool that answers nothing did. -/
theorem PoolCtx.unit_ok {r : Result (PoolCtx W)} {pool : PoolCtx W} {u : Unit}
    (hrun : (do return (← r, ()) : Result (PoolCtx W × Unit)) = .ok (pool, u)) : r = .ok pool := by
  obtain ⟨b, hr, heq⟩ := Fallible.bind_ok hrun
  cases heq
  exact hr

namespace Liquidation

theorem GainsShares.shares {r r' : Account} {market : HubAssetKey} {scaled : Int}
    (hr : GainsShares r market scaled r') (market' : HubAssetKey) :
    r'.shares .supply market' =
      r.shares .supply market' + if market' = market then scaled else 0 := by
  rw [← Account.books_total, hr.books, Pi.add_apply, Account.books_total, posting_total]
  simp

/-! ## What is moved -/

/-- The fee of a credited seizure, as the pool is to take it over. -/
def feeEntry (entry : SeizeEntry) : Option PoolSeizeEntry :=
  match splitSeizedShares entry.scaledAmount entry.bonusScaled entry.liquidationFees with
  | .ok (fee, _) => if fee > Ray.zero then some ⟨.deposit, ⟨fee⟩, entry.hubAsset⟩ else none
  | .error _ => none

def seizedShares (seized : List SeizeEntry) (market : HubAssetKey) : Int :=
  (seized.map fun e => if market = e.hubAsset then e.scaledAmount else 0).sum

def feeShares (fees : List PoolSeizeEntry) (market : HubAssetKey) : Int :=
  (fees.map fun e => if market = e.hubAsset then e.position.scaledAmount else 0).sum

/-- The seized shares leave `account`; `receiver` gets them less those in `fees`, which are what
the entries split off. -/
structure SharesCredited (seized : List SeizeEntry) (account receiver : Account) (acc : CreditAcc) :
    Prop where
  taken : ∀ market, acc.account.shares .supply market =
    account.shares .supply market - seizedShares seized market
  given : ∀ market, acc.receiver.shares .supply market = receiver.shares .supply market +
    (seizedShares seized market - feeShares acc.feeEntries market)
  booked : acc.feeEntries = seized.filterMap feeEntry
  accountBesides : account.SameBesides .supply acc.account
  receiverBesides : receiver.SameBesides .supply acc.receiver

theorem seizedShares_append (l l' : List SeizeEntry) (market : HubAssetKey) :
    seizedShares (l ++ l') market = seizedShares l market + seizedShares l' market := by
  rw [seizedShares, List.map_append, List.sum_append]
  rfl

theorem feeShares_append (l l' : List PoolSeizeEntry) (market : HubAssetKey) :
    feeShares (l ++ l') market = feeShares l market + feeShares l' market := by
  rw [feeShares, List.map_append, List.sum_append]
  rfl

@[simp] theorem seizedShares_singleton (e : SeizeEntry) (market : HubAssetKey) :
    seizedShares [e] market = if market = e.hubAsset then e.scaledAmount else 0 := by
  simp [seizedShares]

theorem SharesCredited.start {account receiver : Account} :
    SharesCredited [] account receiver ⟨account, receiver, []⟩ :=
  ⟨fun _ => (sub_zero _).symm, fun _ => (add_zero _).symm, rfl, .refl, .refl⟩

/-! ## One entry -/

section
variable {P : Invocation W → Prop} {account receiver : Account} {acc : CreditAcc}

theorem feeEntry_of_split {entry : SeizeEntry} {fee liquidator : Int}
    (hsplit : splitSeizedShares entry.scaledAmount entry.bonusScaled entry.liquidationFees =
      .ok (fee, liquidator)) :
    [entry].filterMap feeEntry =
      if fee > Ray.zero then [⟨.deposit, ⟨fee⟩, entry.hubAsset⟩] else [] := by
  by_cases hpos : fee > Ray.zero
  · have hfee : feeEntry entry = some ⟨.deposit, ⟨fee⟩, entry.hubAsset⟩ := by
      rw [feeEntry, hsplit]
      exact if_pos hpos
    rw [List.filterMap_cons, hfee, if_pos hpos]
    rfl
  · have hnone : feeEntry entry = none := by
      rw [feeEntry, hsplit]
      exact if_neg hpos
    rw [List.filterMap_cons, hnone, if_neg hpos]
    rfl

theorem SharesCredited.step {entry : SeizeEntry} {seized : List SeizeEntry} {fee liquidator : Int}
    {account' receiver' : Account} (hacc : SharesCredited seized account receiver acc)
    (hsplit : splitSeizedShares entry.scaledAmount entry.bonusScaled entry.liquidationFees =
      .ok (fee, liquidator)) (hsum : entry.scaledAmount - liquidator = fee)
    (hb : acc.account.Becomes .supply entry.hubAsset
      (acc.account.shares .supply entry.hubAsset - entry.scaledAmount) account')
    (hgains : GainsShares acc.receiver entry.hubAsset liquidator receiver') :
    SharesCredited (seized ++ [entry]) account receiver
      ⟨account', receiver', acc.feeEntries ++ [entry].filterMap feeEntry⟩ := by
  have hfee0 := (splitSeizedShares_nonneg hsplit).1
  have hshares : ∀ market, feeShares ([entry].filterMap feeEntry) market =
      if market = entry.hubAsset then fee else 0 := by
    intro market
    rw [feeEntry_of_split hsplit]
    split
    · simp [feeShares]
    · rename_i hzero
      obtain rfl : fee = 0 := le_antisymm (not_lt.mp hzero) hfee0
      simp [feeShares]
  refine ⟨fun market => ?_, fun market => ?_, ?_, hacc.accountBesides.trans hb.besides,
    hacc.receiverBesides.trans hgains.besides⟩
  · rw [hb.shares, seizedShares_append, seizedShares_singleton, ← sub_sub, ← hacc.taken]
    split
    · rename_i heq
      rw [heq]
    · rw [sub_zero]
  · rw [hgains.shares, hacc.given, feeShares_append, hshares, seizedShares_append,
      seizedShares_singleton]
    split <;> omega
  · rw [hacc.booked, List.filterMap_append]

/-- **One credit.** The shares of the entry, split between the receiver and the fee. -/
theorem creditSeizure_credits (h : ControllerHost W)
    (hP : ∀ s s', SameSystem s s' → P s → P s') {entry : SeizeEntry} {seized : List SeizeEntry}
    (hacc : SharesCredited seized account receiver acc) :
    Within P (creditSeizure acc entry : Ctrl W CreditAcc)
      (SharesCredited (seized ++ [entry]) account receiver) := by
  refine .bind (Within.along (ContextOnly.of_reads h 0 Positions.enforceSpokeAssetFlags_reads) hP)
    fun _ _ => .result fun split hsplit => .assert fun _ => .result fun rest hrest =>
    .assert fun hfee => .unwrap fun position hget => .result fun scaled hscaled =>
    .bind ((Within.along (ContextOnly.of_reads h 0 creditSupplyShares_reads) hP).returning
      creditSupplyShares_gains) fun gained hgains => ?_
  obtain ⟨fee, liquidator⟩ := split
  obtain ⟨-, -, -, rfl⟩ := Ray.checkedSub_ok_iff.mp hrest
  obtain ⟨-, -, -, rfl⟩ := Ray.checkedSub_ok_iff.mp hscaled
  have hb := acc.account.updateOrRemoveSupplyPosition_becomes entry.hubAsset
    { position with scaledAmount := position.scaledAmount - entry.scaledAmount }
  have hstep := hacc.step hsplit hfee (by rwa [acc.account.shares_of_supply hget]) hgains
  rw [feeEntry_of_split hsplit] at hstep
  refine .ite (fun hpos => .bind (Within.along Context.applySpokeExit_contextOnly hP) fun _ _ =>
    .pure ?_) fun hzero => .pure ?_
  · rwa [if_pos (show fee > Ray.zero from hpos)] at hstep
  · rwa [if_neg (show ¬ fee > Ray.zero from hzero), List.append_nil] at hstep

/-- `credit_seizure` once the shares are split and taken: what is left to fail are the asset's
flags, the spoke of the receiver, its listing of the asset and the sum of its shares. -/
def creditSplit (acc : CreditAcc) (entry : SeizeEntry) (position : AccountPosition)
    (fee liquidator : Int) : Ctrl W CreditAcc := do
  Positions.enforceSpokeAssetFlags acc.account.spokeId entry.hubAsset .seizureLeg
  assertWithError (acc.receiver.spokeId = acc.account.spokeId) .spokeMismatch
  let account := acc.account.updateOrRemoveSupplyPosition entry.hubAsset
    { position with scaledAmount := position.scaledAmount - entry.scaledAmount }
  let receiver ← creditSupplyShares acc.receiver entry.hubAsset liquidator
  if fee > Ray.zero then
    Context.applySpokeExit acc.account.spokeId .supply entry.hubAsset fee
    let feeEntries := acc.feeEntries ++ [⟨.deposit, ⟨fee⟩, entry.hubAsset⟩]
    return { account, receiver, feeEntries }
  else
    return { account, receiver, feeEntries := acc.feeEntries }

/-- The share arithmetic of a credit does not fail where the shares split and are held. -/
theorem creditSeizure_split {entry : SeizeEntry} {position : AccountPosition} {fee liquidator : Int}
    (hsplit : splitSeizedShares entry.scaledAmount entry.bonusScaled entry.liquidationFees =
      .ok (fee, liquidator))
    (hrest : Ray.checkedSub entry.scaledAmount liquidator = .ok fee)
    (hget : acc.account.supplyPositions.get? entry.hubAsset = some position)
    (htaken : Ray.checkedSub position.scaledAmount entry.scaledAmount =
      .ok (position.scaledAmount - entry.scaledAmount)) :
    (creditSeizure acc entry : Ctrl W CreditAcc) =
      creditSplit acc entry position fee liquidator := by
  have hreturns {β γ : Type} {r : Result β} {b : β} (hr : r = .ok b) (f : β → Ctrl W γ) :
      ((liftM r : Ctrl W β) >>= f) = f b := by
    rw [hr]
    rfl
  have hspoke := (acc.account.updateOrRemoveSupplyPosition_becomes entry.hubAsset
    { position with scaledAmount := position.scaledAmount - entry.scaledAmount }).spokeId
  unfold creditSeizure creditSplit
  refine bind_congr fun _ => ?_
  rw [hreturns hsplit]
  refine bind_congr fun _ => ?_
  rw [hreturns hrest, assertWithError, hreturns (b := ()) (Fallible.require_ok_iff.mpr rfl),
    Positions.getSupplyPositionOrPanic, unwrapOr, hreturns (Fallible.orThrow_ok_iff.mpr hget),
    hreturns htaken]
  dsimp only
  rw [hspoke]

theorem creditSeizure_contextOnly (h : ControllerHost W) {entry : SeizeEntry} :
    ContextOnly (creditSeizure acc entry : Ctrl W CreditAcc) :=
  .bind (ContextOnly.of_reads h 0 Positions.enforceSpokeAssetFlags_reads) fun _ =>
    .bind .lift fun _ => .bind .lift fun _ => .bind .lift fun _ => .bind .lift fun _ =>
    .bind .lift fun _ => .bind .lift fun _ =>
    .bind (ContextOnly.of_reads h 0 creditSupplyShares_reads) fun _ =>
    .ite (.bind Context.applySpokeExit_contextOnly fun _ => .pure) .pure

/-! ## All entries -/

theorem poolSeizePositions_ok {timestamp : Nat} {entries : List PoolSeizeEntry}
    {s s' : Invocation W} (hrun : poolSeizePositions timestamp entries s = .ok () s') :
    ∃ pool, LiquidityPool.seizePositions timestamp s.pool entries = .ok pool ∧
      s'.toSystem = { s.toSystem with pool } := by
  have hcall : Triple (fun _ => True) (· = s) (poolSeizePositions timestamp entries) fun _ t =>
      ∃ pool, LiquidityPool.seizePositions timestamp s.pool entries = .ok pool ∧
        t.toSystem = { s.toSystem with pool } :=
    poolCall_triple fun t _ ht pool _ hseize =>
      ⟨trivial, pool, ht ▸ PoolCtx.unit_ok hseize, ht ▸ rfl⟩
  exact (hcall.ok trivial rfl hrun).2

/-- What the pool and the store are after the fees were handed over: the pool's own call on them,
or nothing where there are none. -/
def HandsOver (timestamp : Nat) (fees : List PoolSeizeEntry) (s s' : System W) : Prop :=
  if fees = [] then s' = s
  else ∃ pool, LiquidityPool.seizePositions timestamp s.pool fees = .ok pool ∧ s' = { s with pool }

/-- **A share credit.** What leaves the account is what the receiver gets and the pool takes over
as fees, share for share. -/
theorem applyLiquidationShareCredit_credits (h : ControllerHost W) {timestamp : Nat}
    {seized : List SeizeEntry} {account' receiver' : Account} {s s' : Invocation W}
    (hrun : applyLiquidationShareCredit timestamp account receiver seized s =
      .ok (account', receiver') s') :
    ∃ fees, SharesCredited seized account receiver ⟨account', receiver', fees⟩ ∧
      HandsOver timestamp fees s.toSystem s'.toSystem := by
  obtain ⟨acc, s₁, hloop, hrest⟩ := bind_ok_iff.mp hrun
  have hsame : s₁.toSystem = s.toSystem :=
    (Along.foldlM (fun _ _ => creditSeizure_contextOnly h) _).ok hloop
  have hcredits : Within (fun _ : Invocation W => True) (seized.foldlM creditSeizure
      ⟨account, receiver, []⟩) (SharesCredited seized account receiver) :=
    Spec.foldlM (P := fun acc done => SharesCredited done account receiver acc)
      (fun _ _ _ _ hacc => creditSeizure_credits h (fun _ _ _ => id) hacc) _ .start
  obtain ⟨-, hacc⟩ := hcredits.ok trivial hloop
  refine ⟨acc.feeEntries, ?_⟩
  unfold HandsOver
  split at hrest
  · rename_i hne
    obtain ⟨_, s₂, hpool, hrest⟩ := bind_ok_iff.mp hrest
    cases hrest
    refine ⟨hacc, ?_⟩
    rw [if_neg hne, ← hsame]
    exact poolSeizePositions_ok hpool
  · rename_i hnil
    cases hrest
    rw [if_pos (not_not.mp hnil)]
    exact ⟨hacc, hsame⟩

end

end Liquidation

end Lending
