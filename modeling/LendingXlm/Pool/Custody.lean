import LendingXlm.Pool.Run

/-!
# Custody

The pool tracks cash per market, while its token balance is shared by every hub that lists the
token.

* `PoolCtx.Backed`: the balance covers the tracked cash of a token and what has been delivered
  but not booked yet;
* `Backed.pay`: one leg keeps that, whatever it books and pays out;
* `PoolCall.custody`: so does every call, and `PoolRun.custody` every run.
-/

namespace Lending

open Ops

variable {W : Type} {h : PoolHost W} {timestamp : Nat}

/-! ## What is assumed of the tokens -/

/-- How tokens treat the pool's balances. Nobody but the pool lowers them: its own transfer
debits at most the sent amount, a pull into the pool or a receiver's callback debits nothing. -/
structure PoolHost.Conforming (h : PoolHost W) : Prop where
  balance_nonneg : ∀ w token, 0 ≤ h.balance w token h.pool
  transfer_debits : ∀ {w w' asset recipient amount}, 0 ≤ amount →
    h.transfer w asset h.pool recipient amount = .ok w' →
    ∀ token, h.balance w token h.pool - (if token = asset then amount else 0) ≤
      h.balance w' token h.pool
  transfer_in_keeps : ∀ {w w' asset sender amount},
    h.transfer w asset sender h.pool amount = .ok w' →
    ∀ token, token ≠ asset → h.balance w token h.pool ≤ h.balance w' token h.pool
  transferFrom_keeps : ∀ {w w' asset sender amount},
    h.transferFrom w asset h.pool sender h.pool amount = .ok w' →
    ∀ token, token ≠ asset → h.balance w token h.pool ≤ h.balance w' token h.pool
  callback_keeps : ∀ {w w' receiver initiator asset amount fee data},
    h.executeFlashLoan w receiver initiator asset amount fee h.pool data = .ok w' →
    ∀ token, h.balance w token h.pool ≤ h.balance w' token h.pool

/-! ## One market of the pool -/

/-- Adds what an entry delivers. -/
def delivering (pending : Address → Int) (asset : Address) (amount : Int) : Address → Int :=
  fun token => pending token + if token = asset then amount else 0

theorem delivering_zero (pending : Address → Int) (asset : Address) :
    delivering pending asset 0 = pending := by
  funext token
  rw [delivering, ite_self, add_zero]

namespace PoolCtx

/-- The tracked cash of a token over all hubs. -/
def cashOf (s : PoolCtx W) (token : Address) : Int :=
  s.markets.sumBy fun key m => if key.asset = token then m.state.cash else 0

/-- Markets are stored under their own asset. -/
def Keyed (s : PoolCtx W) : Prop :=
  ∀ key m, s.markets.get? key = some m → m.params.assetId = key.asset

/-- The pool's balance covers its tracked cash and the deliveries not booked yet. -/
def Backed (h : PoolHost W) (s : PoolCtx W) (pending : Address → Int) : Prop :=
  ∀ token, s.cashOf token + pending token ≤ h.balance s.world token h.pool

variable {s s' : PoolCtx W} {key : HubAssetKey} {supply debt cash : Int}

theorem Moved.cashOf (hm : Moved timestamp s s' key supply debt cash) (token : Address) :
    s'.cashOf token = s.cashOf token + if key.asset = token then cash else 0 := by
  obtain ⟨m, m', op, hget, -, hmoves, hset⟩ := hm
  unfold PoolCtx.cashOf
  rw [hset, SortedMap.sumBy_set, SortedMap.weight_of_get? _ hget]
  split
  · rw [hmoves.cash]
    omega
  · omega

theorem Moved.keyed (hm : Moved timestamp s s' key supply debt cash) (hk : s.Keyed) :
    s'.Keyed := by
  obtain ⟨m, m', op, hget, -, hmoves, hset⟩ := hm
  intro key' d hd
  rw [hset, SortedMap.get?_set] at hd
  split at hd
  · rename_i heq
    cases hd
    rw [hmoves.assetId, heq]
    exact hk key m hget
  · exact hk key' d hd

/-- A market whose asset is delivered and booked, and part of it paid out. -/
theorem Backed.pay {pending : Address → Int} {booked delivered : Int} (paid : Int)
    (hb : Backed h s (delivering pending key.asset delivered))
    (hm : Moved timestamp s s' key supply debt booked) (hle : booked + paid ≤ delivered)
    (hpay : ∀ token, h.balance s.world token h.pool - (if token = key.asset then paid else 0) ≤
      h.balance s'.world token h.pool) :
    Backed h s' pending := by
  intro token
  have h1 := hb token
  have h2 := hpay token
  rw [hm.cashOf token]
  unfold delivering at h1
  by_cases heq : key.asset = token
  · subst heq
    simp only [if_true] at h1 h2 ⊢
    omega
  · have hne : token ≠ key.asset := fun he => heq he.symm
    rw [if_neg hne] at h1 h2
    rw [if_neg heq]
    omega

end PoolCtx

open PoolCtx

/-- The pool's own payment takes at most the amount. -/
theorem Cache.transferOut_debits (hconf : h.Conforming) {c : Cache} {w w' : W}
    {recipient : Address} {amount : Int} (hpay : c.transferOut h w recipient amount = .ok w') :
    ∀ token, h.balance w token h.pool - (if token = c.params.assetId then amount else 0) ≤
      h.balance w' token h.pool := by
  unfold Cache.transferOut requireNonnegAmount at hpay
  simp only [Fallible.bind_ok_iff, Fallible.require_ok_iff] at hpay
  obtain ⟨-, h0, hpay⟩ := hpay
  split at hpay
  · rename_i hz
    rw [Fallible.pure_ok_iff] at hpay
    subst hpay
    intro token
    rw [hz, ite_self, sub_zero]
  · exact hconf.transfer_debits h0 hpay

theorem TokenHost.tryTransfer_zero_keeps (hconf : h.Conforming) (w : W)
    (asset recipient token : Address) :
    h.balance w token h.pool ≤
      h.balance (h.tryTransfer w asset h.pool recipient 0) token h.pool := by
  unfold TokenHost.tryTransfer
  split
  · rename_i w' hw
    have hd := hconf.transfer_debits le_rfl hw token
    rw [ite_self, sub_zero] at hd
    exact hd
  · exact le_rfl

/-! ## Legs -/

section
variable {s s' : PoolCtx W} {pending : Address → Int} {action : PoolAction} {key : HubAssetKey}

/-- A pool in order: markets under their own assets, and the balance covers the books. -/
structure PoolCtx.InCustody (h : PoolHost W) (s : PoolCtx W) (pending : Address → Int) : Prop where
  keyed : s.Keyed
  backed : s.Backed h pending

/-- **One leg.** The market books `booked` of what is delivered, and the pool pays `paid`. -/
theorem PoolCtx.InCustody.leg (hconf : h.Conforming) {supply debt booked paid delivered : Int}
    {recipient : Address} (hs : s.InCustody h (delivering pending key.asset delivered))
    (hm : Moved timestamp s s' key supply debt booked) (hle : booked + paid ≤ delivered)
    (hpay : Pays h s s' key recipient paid) : s'.InCustody h pending := by
  refine ⟨hm.keyed hs.keyed, Backed.pay paid hs.backed hm hle ?_⟩
  obtain ⟨m, c, hget, hasset, hout⟩ := hpay
  have hdebits := Cache.transferOut_debits hconf hout
  rw [hasset, hs.keyed key m hget] at hdebits
  exact hdebits

/-- A leg that pays nothing. -/
theorem PoolCtx.InCustody.book {supply debt booked delivered : Int}
    (hs : s.InCustody h (delivering pending key.asset delivered))
    (hm : Moved timestamp s s' key supply debt booked) (hle : booked ≤ delivered)
    (hkeep : ∀ token, h.balance s.world token h.pool ≤ h.balance s'.world token h.pool) :
    s'.InCustody h pending := by
  refine ⟨hm.keyed hs.keyed, Backed.pay 0 hs.backed hm (by omega) fun token => ?_⟩
  rw [ite_self, sub_zero]
  exact hkeep token

/-- A leg that neither books cash nor touches the world. -/
theorem PoolCtx.InCustody.still {supply debt : Int} (hs : s.InCustody h pending)
    (hm : Moved timestamp s s' key supply debt 0 ∧ s'.world = s.world) :
    s'.InCustody h pending := by
  rw [← delivering_zero pending key.asset] at hs
  exact hs.book hm.1 le_rfl fun token => by rw [hm.2]

theorem Supply.leg_custody {r : PoolPositionMutation}
    (hs : s.InCustody h (delivering pending action.hubAsset.asset action.amount))
    (hleg : Supply.leg timestamp s action = .ok (s', r)) : s'.InCustody h pending := by
  obtain ⟨hm, hworld⟩ := Supply.leg_moved hleg
  exact hs.book hm le_rfl fun token => by rw [hworld]

theorem Borrow.apply_custody (hconf : h.Conforming) {receiver : Address}
    {r : PoolPositionMutation} (hs : s.InCustody h pending)
    (hleg : Borrow.apply h timestamp receiver s action = .ok (s', r)) :
    s'.InCustody h pending := by
  obtain ⟨hm, hpay⟩ := Borrow.apply_moved hleg
  rw [← delivering_zero pending action.hubAsset.asset] at hs
  exact hs.leg hconf hm (by omega) hpay

theorem Withdraw.apply_custody (hconf : h.Conforming) {receiver : Address} {liq : Bool}
    {entry : PoolWithdrawEntry} {r : PoolPositionMutation} (hs : s.InCustody h pending)
    (hleg : Withdraw.apply h timestamp receiver liq s entry = .ok (s', r)) :
    s'.InCustody h pending := by
  rw [← delivering_zero pending entry.action.hubAsset.asset] at hs
  obtain ⟨net, hm, hpay | ⟨rfl, asset, hworld⟩⟩ := Withdraw.apply_moved hleg
  · exact hs.leg hconf hm (by omega) hpay
  · refine hs.book hm (by omega) fun token => ?_
    rw [hworld]
    exact TokenHost.tryTransfer_zero_keeps hconf s.world asset receiver token

theorem Repay.apply_custody (hconf : h.Conforming) {payer : Address} {r : PoolPositionMutation}
    (hs : s.InCustody h (delivering pending action.hubAsset.asset action.amount))
    (hleg : Repay.apply h timestamp payer s action = .ok (s', r)) : s'.InCustody h pending := by
  obtain ⟨overpayment, hm, hpay⟩ := Repay.apply_moved hleg
  exact hs.leg hconf hm (by omega) hpay

theorem Revenue.apply_custody (hconf : h.Conforming) {r : Int} (hs : s.InCustody h pending)
    (hleg : Revenue.apply h timestamp s key = .ok (s', r)) : s'.InCustody h pending := by
  rw [← delivering_zero pending key.asset] at hs
  obtain ⟨hm, ⟨owner, hpay⟩ | ⟨rfl, hworld⟩⟩ := Revenue.apply_moved hleg
  · exact hs.leg hconf hm (by omega) hpay
  · exact hs.book hm (by omega) fun token => by rw [hworld]

theorem Flash.apply_custody (hconf : h.Conforming) {initiator receiver : Address}
    {amount fee : Int} {data : List UInt8} (hs : s.InCustody h pending)
    (hflash : Flash.apply h timestamp s key initiator receiver amount data = .ok (s', fee)) :
    s'.InCustody h pending := by
  obtain ⟨hm, hpos, m, w1, w2, total, hget, hbal, hout, hcall, hin⟩ := Flash.apply_moved hflash
  rw [hs.keyed key m hget] at hbal hout hcall hin
  refine ⟨hm.keyed hs.keyed, fun token => ?_⟩
  have hb := hs.backed token
  rw [hm.cashOf token]
  by_cases heq : key.asset = token
  · subst heq
    rw [if_pos rfl, hbal]
    omega
  · have hne : token ≠ key.asset := fun he => heq he.symm
    have h1 := hconf.transfer_debits hpos hout token
    have h2 := hconf.callback_keeps hcall token
    have h3 := hconf.transferFrom_keeps hin token hne
    rw [if_neg hne] at h1
    rw [if_neg heq]
    omega

end

/-! ## Batches, calls and runs -/

/-- What a list of deliveries adds. -/
def deliveringAll (pending : Address → Int) : List (Address × Int) → Address → Int
  | [] => pending
  | (asset, amount) :: rest => delivering (deliveringAll pending rest) asset amount

/-- A delivery may be counted first or last. -/
theorem deliveringAll_cons (pending : Address → Int) (asset : Address) (amount : Int)
    (rest : List (Address × Int)) (token : Address) :
    deliveringAll pending ((asset, amount) :: rest) token =
      deliveringAll (delivering pending asset amount) rest token := by
  induction rest generalizing pending with
  | nil => rfl
  | cons d rest ih =>
    have h1 := ih pending
    simp only [deliveringAll, delivering] at h1 ⊢
    rw [← h1]
    omega

/-- A batch whose entries each deliver an amount uses the deliveries up. -/
theorem Ops.runBatch_custody {E R : Type} {market : E → HubAssetKey} {unique : Bool}
    {leg : PoolCtx W → E → Result (PoolCtx W × R)} (d : E → Address × Int)
    (hleg : ∀ {s s' : PoolCtx W} {pending : Address → Int} {e : E} {r : R},
      s.InCustody h (delivering pending (d e).1 (d e).2) → leg s e = .ok (s', r) →
        s'.InCustody h pending)
    {entries : List E} {seen : List HubAssetKey} {s s' : PoolCtx W} {pending : Address → Int}
    {rs : List R} (hs : s.InCustody h (deliveringAll pending (entries.map d)))
    (hrun : runBatch market unique leg seen s entries = .ok (s', rs)) :
    s'.InCustody h pending := by
  induction entries generalizing s seen rs with
  | nil =>
    obtain ⟨rfl, -⟩ := runBatch_nil hrun
    exact hs
  | cons e entries ih =>
    obtain ⟨s1, r, rs1, h1, -, h2, -⟩ := runBatch_cons hrun
    exact ih (hleg hs h1) h2

/-- **Every call keeps custody.** -/
theorem PoolCall.custody (hconf : h.Conforming) {s s' : PoolCtx W} {pending : Address → Int}
    {call : PoolCall} (hs : s.InCustody h (deliveringAll pending call.incoming))
    (hexec : call.exec h timestamp s = .ok s') : s'.InCustody h pending := by
  cases call with
  | createMarket hubId params =>
    unfold exec LiquidityPool.createMarket at hexec
    simp only [Fallible.bind_ok_iff, Fallible.pure_ok_iff] at hexec
    obtain ⟨m, hcreate, rfl⟩ := hexec
    obtain ⟨-, hnone, now, -, rfl⟩ := MarketOps.create_ok hcreate
    constructor
    · intro key d hd
      rw [SortedMap.get?_set] at hd
      split at hd
      · rename_i heq
        cases hd
        rw [heq]
      · exact hs.keyed key d hd
    · intro token
      have hb : s.cashOf token + pending token ≤ _ := hs.backed token
      unfold PoolCtx.cashOf at hb ⊢
      rw [SortedMap.sumBy_set, SortedMap.weight_of_none _ hnone]
      simpa using hb
  | updateParams key model => exact hs.still (LiquidityPool.updateParams_moved hexec)
  | supply entries =>
    obtain ⟨⟨s1, rs⟩, hbatch, rfl⟩ := Fallible.map_ok_iff.mp hexec
    exact runBatch_custody (fun a => (a.hubAsset.asset, a.amount)) Supply.leg_custody hs hbatch
  | borrow receiver entries =>
    obtain ⟨⟨s1, rs⟩, hbatch, rfl⟩ := Fallible.map_ok_iff.mp hexec
    exact runBatch_inv (P := fun d => d.InCustody h pending) (Borrow.apply_custody hconf) hs hbatch
  | withdraw receiver liq entries =>
    obtain ⟨⟨s1, rs⟩, hbatch, rfl⟩ := Fallible.map_ok_iff.mp hexec
    exact runBatch_inv (P := fun d => d.InCustody h pending) (Withdraw.apply_custody hconf) hs
      hbatch
  | repay payer actions =>
    obtain ⟨⟨s1, rs⟩, hbatch, rfl⟩ := Fallible.map_ok_iff.mp hexec
    exact runBatch_custody (fun a => (a.hubAsset.asset, a.amount)) (Repay.apply_custody hconf) hs
      hbatch
  | updateIndexes keys =>
    exact Fallible.foldlM_inv (P := fun d => d.InCustody h pending)
      (fun _ _ _ _ hd hstep => hd.still (LiquidityPool.accrue_moved hstep)) hs hexec
  | recapitalize key payer amount =>
    obtain ⟨⟨s1, r⟩, happly, rfl⟩ := Fallible.map_ok_iff.mp hexec
    obtain ⟨hm, hpay⟩ := Recapitalize.apply_moved happly
    exact hs.leg hconf hm (by omega) hpay
  | flashLoan key initiator receiver amount data =>
    obtain ⟨⟨s1, r⟩, happly, rfl⟩ := Fallible.map_ok_iff.mp hexec
    exact Flash.apply_custody hconf hs happly
  | createStrategy receiver action charge =>
    obtain ⟨⟨s1, r⟩, happly, rfl⟩ := Fallible.map_ok_iff.mp hexec
    obtain ⟨hm, hpay⟩ := Strategy.apply_moved happly
    rw [← delivering_zero pending action.hubAsset.asset] at hs
    exact PoolCtx.InCustody.leg hconf hs hm (by omega) hpay
  | seizePositions entries =>
    unfold exec LiquidityPool.seizePositions at hexec
    simp only [Fallible.bind_ok_iff, Fallible.pure_ok_iff] at hexec
    obtain ⟨⟨s1, rs⟩, hbatch, rfl⟩ := hexec
    exact runBatch_inv (P := fun d => d.InCustody h pending)
      (fun hd hleg => hd.still (Seize.leg_moved hleg)) hs hbatch
  | netSettle entry =>
    obtain ⟨⟨s1, r⟩, happly, rfl⟩ := Fallible.map_ok_iff.mp hexec
    exact hs.still (LiquidityPool.netSettle_moved happly)
  | claimRevenue key =>
    obtain ⟨⟨s1, r⟩, happly, rfl⟩ := Fallible.map_ok_iff.mp hexec
    exact Revenue.apply_custody hconf hs happly

/-- Measured pulls add exactly what they report. -/
theorem Pulled.custody (hconf : h.Conforming) {s : PoolCtx W} {w w' : W}
    {incoming : List (Address × Int)} (hpull : Pulled h w incoming w')
    {pending : Address → Int} (hs : (⟨s.markets, w⟩ : PoolCtx W).InCustody h pending) :
    (⟨s.markets, w'⟩ : PoolCtx W).InCustody h (deliveringAll pending incoming) := by
  refine ⟨hs.keyed, fun token => ?_⟩
  have hb : s.cashOf token + pending token ≤ h.balance w token h.pool := hs.backed token
  show s.cashOf token + deliveringAll pending incoming token ≤ h.balance w' token h.pool
  clear hs
  induction hpull generalizing pending with
  | nil w => exact hb
  | @cons w w1 w2 asset received rest sender amount e hpull hrest ih =>
    unfold TokenHost.transferAmountMeasured at hpull
    simp only [Fallible.bind_ok_iff, Fallible.require_ok_iff, Fallible.orThrow_ok_iff,
      I128.checkedSub_some, Fallible.pure_ok_iff, Prod.mk.injEq] at hpull
    obtain ⟨-, -, w1', htransfer, _, ⟨-, rfl⟩, rfl, rfl⟩ := hpull
    rw [deliveringAll_cons]
    refine ih ?_
    unfold delivering
    split
    · rename_i heq
      subst heq
      omega
    · rename_i hne
      have := hconf.transfer_in_keeps htransfer token hne
      omega

theorem PoolRun.keyed {s : PoolCtx W} (hrun : PoolRun h s timestamp) : s.Keyed := by
  intro key m hget
  obtain ⟨t, -, trace, hmarket⟩ := hrun.markets key m hget
  exact hmarket.assetId

theorem PoolRun.custody (hconf : h.Conforming) {s : PoolCtx W} (hrun : PoolRun h s timestamp) :
    s.InCustody h fun _ => 0 := by
  induction hrun with
  | deploy w timestamp =>
    constructor
    · intro key m hget
      cases hget
    · intro token
      simpa [PoolCtx.cashOf] using hconf.balance_nonneg w token
  | call call hrun hle hpull hexec ih => exact PoolCall.custody hconf (hpull.custody hconf ih) hexec
  | outside hrun hkeep ih =>
    exact ⟨ih.keyed, fun token => (ih.backed token).trans (hkeep token)⟩

/-- **Pool custody.** In every run over conforming tokens, the pool holds of each token at least
the tracked cash of all markets of that token. In every reachable pool, whatever the receiver
does, a flash loan that returns leaves the pool's balance at its start plus the fee or above,
and books exactly the fee into the market's cash. -/
theorem pool_custody (h : PoolHost W) {s : PoolCtx W} {timestamp : Nat}
    (hrun : PoolRun h s timestamp) :
    (h.Conforming → ∀ token, s.cashOf token ≤ h.balance s.world token h.pool) ∧
    ∀ now key initiator receiver amount data s' fee,
      LiquidityPool.flashLoan h now s key initiator receiver amount data = .ok (s', fee) →
        h.balance s.world key.asset h.pool + fee ≤ h.balance s'.world key.asset h.pool ∧
        ∃ m m', s.markets.get? key = some m ∧ s'.markets = s.markets.set key m' ∧
          m'.state.cash = m.state.cash + fee := by
  constructor
  · intro hconf token
    have hb := (hrun.custody hconf).backed token
    simpa using hb
  · intro now key initiator receiver amount data s' fee hflash
    obtain ⟨⟨m, m', op, hget, -, hm, hset⟩, -, d, -, -, -, hget', hbal, -⟩ :=
      Flash.apply_moved hflash
    rw [hrun.keyed key d hget'] at hbal
    exact ⟨hbal.ge, m, m', hget, hset, hm.cash⟩

namespace Sample

/-- Balances by token and holder. -/
abbrev Balances := Address → Address → Nat

def movedTokens (w : Balances) (asset sender recipient : Address) (amount : Nat) : Balances :=
  fun token holder =>
    if token = asset then
      w asset holder - (if holder = sender then amount else 0) +
        (if holder = recipient then amount else 0)
    else w token holder

/-- Moves tokens when the sender has them. -/
def moveTokens (w : Balances) (asset sender recipient : Address) (amount : Int) :
    Result Balances :=
  if 0 ≤ amount ∧ amount ≤ w asset sender then
    .ok (movedTokens w asset sender recipient amount.toNat)
  else .error .foreignTrap

/-- A plain ledger with unlimited allowances, and a flash-loan receiver that only keeps the loan
until it is collected. The pool is address 1 and its owner 2. -/
def host : PoolHost Balances where
  balance w asset holder := w asset holder
  allowance _ _ _ _ := i128Max
  transfer := moveTokens
  transferFrom w asset _ sender recipient amount := moveTokens w asset sender recipient amount
  pool := 1
  owner := some 2
  isWasmContract _ _ := true
  executeFlashLoan w _ _ _ _ _ _ _ := .ok w

theorem moveTokens_ok {w w' : Balances} {asset sender recipient : Address} {amount : Int}
    (h : moveTokens w asset sender recipient amount = .ok w') (token : Address) :
    (w token host.pool : Int) -
      (if token = asset ∧ sender = host.pool then amount else 0) ≤ w' token host.pool := by
  unfold moveTokens at h
  split at h
  · rename_i hle
    cases h
    unfold movedTokens
    by_cases ht : token = asset
    · subst ht
      by_cases hs : sender = host.pool
      · subst hs
        simp only [true_and, if_true]
        split <;> omega
      · have hs' : ¬ host.pool = sender := fun he => hs he.symm
        simp only [true_and, if_true, hs, hs', if_false]
        split <;> omega
    · simp [ht]
  · cases h

theorem host_conforming : host.Conforming where
  balance_nonneg w token := Int.natCast_nonneg _
  transfer_debits _ hmove token := by
    have hm := moveTokens_ok hmove token
    simp only [and_true] at hm
    exact hm
  transfer_in_keeps hmove token hne := by
    have hm := moveTokens_ok hmove token
    rw [if_neg (fun hc => hne hc.1), sub_zero] at hm
    exact hm
  transferFrom_keeps hmove token hne := by
    have hm := moveTokens_ok hmove token
    rw [if_neg (fun hc => hne hc.1), sub_zero] at hm
    exact hm
  callback_keeps hcall token := by
    cases hcall
    exact le_rfl

/-- Every holder starts with plenty of every token, but the pool has none. -/
def opening : Balances := fun _ holder => if holder = 1 then 0 else 100_000_000_000

/-- The supplier, address 5, has paid in. -/
def paidIn : Balances := movedTokens opening key.asset 5 1 10_000_000_000

/-- The pool with the sample market, supplied through a measured pull. -/
def suppliedPool : PoolCtx Balances := ⟨SortedMap.empty.set key supplied, paidIn⟩

theorem suppliedPool_run : PoolRun host suppliedPool 1_000 := by
  have h0 : PoolRun host ⟨SortedMap.empty.set key created, opening⟩ 1_000 :=
    .call (.createMarket 1 params) (.deploy opening 1_000) le_rfl (.nil _) rfl
  have hpull : Pulled host opening [(key.asset, 10_000_000_000)] paidIn :=
    .cons 5 10_000_000_000 .amountMustBePositive rfl (.nil _)
  exact .call (.supply [⟨⟨0⟩, 10_000_000_000, key⟩]) h0 le_rfl hpull rfl

end Sample

/-- The sample pool lends a million units and gets them back with the fee of nine basis
points. -/
theorem pool_custody_sample :
    Sample.suppliedPool.cashOf Sample.key.asset ≤ 10_000_000_000 ∧
    ∃ s', LiquidityPool.flashLoan Sample.host 1_000 Sample.suppliedPool Sample.key 5 6 1_000_000 [] =
        .ok (s', 900) ∧
      10_000_000_900 ≤ Sample.host.balance s'.world Sample.key.asset Sample.host.pool := by
  obtain ⟨hcash, hflash⟩ := pool_custody Sample.host Sample.suppliedPool_run
  obtain ⟨s', hs'⟩ : ∃ s', LiquidityPool.flashLoan Sample.host 1_000 Sample.suppliedPool
      Sample.key 5 6 1_000_000 [] = .ok (s', 900) := ⟨_, rfl⟩
  exact ⟨hcash Sample.host_conforming _, s', hs', (hflash _ _ _ _ _ _ _ _ hs').1⟩

end Lending
