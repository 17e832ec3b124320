import LendingXlm.Controller.Calls
import LendingXlm.Controller.Listings
import LendingXlm.Controller.Liquidation.Settlement

/-!
# Accounts, totals and rows agree

What the invariant of `LendingXlm.Controller.Calls` says of a stored state, line by line: the
shares of all accounts are the pool's totals (`accounts_match_pool`), those of a spoke's accounts
are its usage rows (`usage_matches_accounts`), and every account keeps its shape
(`account_structure`).
-/

namespace Lending

open Transaction Ctrl Invocation Books

variable {W : Type} {h : ControllerHost W} {timestamp : Nat}

/-! ## Totals -/

namespace ControllerStore

/-- The shares of a market an account holds on one side. -/
def sharesOf (s : ControllerStore) (id : Nat) : UsageSide → HubAssetKey → Int
  | .supply, market => scaledOf AccountPosition.scaledAmount (s.getSupplyPositions id) market
  | .borrow, market => scaledOf DebtPosition.scaledAmount (s.getDebtPositions id) market

/-- The shares of all stored accounts. -/
def totalShares (s : ControllerStore) (side : UsageSide) (market : HubAssetKey) : Int :=
  s.metas.sumBy fun id _ => s.sharesOf id side market

/-- The shares of the stored accounts bound to a spoke. -/
def spokeShares (s : ControllerStore) (spokeId : Nat) (side : UsageSide) (market : HubAssetKey) :
    Int :=
  s.metas.sumBy fun id m => if m.spokeId = spokeId then s.sharesOf id side market else 0

end ControllerStore

/-! ## Lines of books -/

section Lines

variable {V : Type} {scaled : V → Int} {spokeId : Nat} {side side' : UsageSide}
  {m : SortedMap HubAssetKey V} {market : HubAssetKey}

theorem posting_total {k : HubAssetKey} {d : Int} :
    posting spokeId side k d ⟨none, side', market⟩ =
      if side' = side ∧ market = k then d else 0 := by
  simp [posting, atPool, Pi.single_apply]

theorem posting_row {id : Nat} {k : HubAssetKey} {d : Int} :
    posting spokeId side k d ⟨some id, side', market⟩ =
      if id = spokeId ∧ side' = side ∧ market = k then d else 0 := by
  simp [posting, atSpoke, Pi.single_apply]

theorem sideBooks_line (line : Line) :
    sideBooks scaled spokeId side m line =
      posting spokeId side line.market (scaledOf scaled m line.market) line := by
  obtain ⟨scope, side', market⟩ := line
  unfold sideBooks
  rw [SortedMap.sumBy_apply, SortedMap.sumBy_at (k := market), ← weight_posting]
  · unfold SortedMap.weight
    cases m.get? market <;> rfl
  · intro k v hne
    cases scope with
    | none => rw [posting_total, if_neg fun hand => hne hand.2.symm]
    | some id => rw [posting_row, if_neg fun hand => hne hand.2.2.symm]

end Lines

/-- The lines of the books are the shares. -/
theorem Account.books_total {a : Account} {side : UsageSide} {market : HubAssetKey} :
    a.books ⟨none, side, market⟩ = a.shares side market := by
  unfold books positionBooks
  rw [Pi.add_apply, sideBooks_line, sideBooks_line, posting_total, posting_total]
  cases side <;> simp [shares]

theorem Account.Becomes.shares_self {a b : Account} {side : UsageSide} {market : HubAssetKey}
    {scaled : Int} (hb : a.Becomes side market scaled b) : b.shares side market = scaled := by
  rw [← books_total, hb.books, Pi.add_apply, books_total, posting_total, if_pos ⟨rfl, rfl⟩]
  omega

namespace ControllerStore

variable {s : ControllerStore} {id spokeId : Nat} {side : UsageSide} {market : HubAssetKey}

theorem positionBooks_total :
    positionBooks spokeId (s.getSupplyPositions id) (s.getDebtPositions id) ⟨none, side, market⟩ =
      s.sharesOf id side market := by
  unfold positionBooks
  rw [Pi.add_apply, sideBooks_line, sideBooks_line, posting_total, posting_total]
  cases side <;> simp [sharesOf]

theorem positionBooks_row {bound : Nat} :
    positionBooks bound (s.getSupplyPositions id) (s.getDebtPositions id)
        ⟨some spokeId, side, market⟩ =
      if bound = spokeId then s.sharesOf id side market else 0 := by
  unfold positionBooks
  rw [Pi.add_apply, sideBooks_line, sideBooks_line, posting_row, posting_row]
  by_cases hid : bound = spokeId
  · subst hid
    cases side <;> simp [sharesOf]
  · simp [hid, Ne.symm hid]

theorem booksBesides_total : s.booksBesides [] ⟨none, side, market⟩ = s.totalShares side market := by
  unfold booksBesides totalShares
  rw [SortedMap.sumBy_apply]
  refine SortedMap.sumBy_congr fun id m _ => ?_
  rw [if_neg List.not_mem_nil, positionBooks_total]

theorem booksBesides_row :
    s.booksBesides [] ⟨some spokeId, side, market⟩ = s.spokeShares spokeId side market := by
  unfold booksBesides spokeShares
  rw [SortedMap.sumBy_apply]
  refine SortedMap.sumBy_congr fun id m _ => ?_
  rw [if_neg List.not_mem_nil, positionBooks_row]

theorem sharesOf_nonneg {s : System W} (hs : s.WellFormed) : 0 ≤ s.store.sharesOf id side market := by
  have hnn : 0 ≤ (s.store.account id 0 ⟨0, .normal⟩).shares side market :=
    (hs.sound id 0 ⟨0, .normal⟩).positive.shares_nonneg
  cases side <;> exact hnn

/-- The account has a position in the market. -/
def Holds (s : ControllerStore) (id : Nat) (market : HubAssetKey) : UsageSide → Prop
  | .supply => (s.getSupplyPositions id).contains market = true
  | .borrow => (s.getDebtPositions id).contains market = true

/-- A stored position holds shares. -/
theorem sharesOf_pos {s : System W} (hs : s.WellFormed) (hholds : s.store.Holds id market side) :
    0 < s.store.sharesOf id side market := by
  have hpos := (hs.sound id 0 ⟨0, .normal⟩).positive
  cases side with
  | supply =>
    obtain ⟨p, hget⟩ := SortedMap.contains_iff.mp hholds
    have hp := hpos.supply hget
    simpa [sharesOf, scaledOf, hget] using hp
  | borrow =>
    obtain ⟨p, hget⟩ := SortedMap.contains_iff.mp hholds
    have hp := hpos.debt hget
    simpa [sharesOf, scaledOf, hget] using hp

/-- No account has more than all of its spoke together. -/
theorem sharesOf_le_spoke {s : System W} (hs : s.WellFormed) {m : AccountMeta}
    (hm : s.store.metas.get? id = some m) :
    s.store.sharesOf id side market ≤ s.store.spokeShares m.spokeId side market := by
  have hle := SortedMap.le_sumBy
    (f := fun id' (m' : AccountMeta) =>
      if m'.spokeId = m.spokeId then s.store.sharesOf id' side market else 0) ?_ hm
  · rwa [if_pos rfl] at hle
  · intro id' m' _
    split
    · exact sharesOf_nonneg hs
    · exact le_rfl

end ControllerStore

/-! ## What holds in every run -/

namespace System

variable {s : System W}

theorem Reachable.wellFormed (hs : s.Reachable h) : s.WellFormed := hs.inBalance.wellFormed

theorem Reachable.recorded (hs : s.Reachable h) : s.recorded = s.store.booksBesides [] := by
  have hb := hs.inBalance
  rw [← hb.persisted, hb.books, add_zero]

theorem Reachable.totalShares (hs : s.Reachable h) {side : UsageSide} {market : HubAssetKey} :
    s.store.totalShares side market =
      (s.pool.markets.get? market).elim 0 fun m => m.shares side := by
  rw [← ControllerStore.booksBesides_total, ← hs.recorded, System.recorded]
  simp [poolBooks, rowBooks]

theorem Reachable.spokeShares (hs : s.Reachable h) {spokeId : Nat} {side : UsageSide}
    {market : HubAssetKey} :
    s.store.spokeShares spokeId side market = s.store.usageOf spokeId market side := by
  rw [← ControllerStore.booksBesides_row, ← hs.recorded, System.recorded]
  simp [poolBooks, rowBooks, ControllerStore.usageOf]

end System

/-! ## A sample run -/

/-- The calls one after the other, all at one time. -/
def runCalls (h : ControllerHost W) (timestamp : Nat) (s : System W) (calls : List ControllerCall) :
    Result (System W) :=
  calls.foldlM (fun s call => call.exec h timestamp s) s

theorem runCalls_steps {s s' : System W} {calls : List ControllerCall}
    (hrun : runCalls h timestamp s calls = .ok s') :
    ControllerSteps h (s, timestamp) (s', timestamp) := by
  induction calls generalizing s with
  | nil =>
    obtain rfl := Except.ok.inj hrun
    exact .refl
  | cons call calls ih =>
    obtain ⟨t, hexec, hrest⟩ := Fallible.bind_ok hrun
    exact .head (.call call le_rfl hexec) (ih hrest)

theorem runCalls_single {s s' : System W} {call : ControllerCall}
    (hrun : runCalls h timestamp s [call] = .ok s') : call.exec h timestamp s = .ok s' := by
  obtain ⟨t, hexec, hrest⟩ := Fallible.bind_ok hrun
  cases hrest
  exact hexec

/-- A run that returns is read off by evaluating it. -/
theorem runCalls_ok {s : System W} {calls : List ControllerCall} {p : System W → Prop}
    [DecidablePred p] (hrun : (runCalls h timestamp s calls).toOption.any (fun s => p s) = true) :
    ∃ s', runCalls h timestamp s calls = .ok s' ∧ p s' := by
  cases hr : runCalls h timestamp s calls with
  | error e =>
    rw [hr] at hrun
    cases hrun
  | ok s' =>
    rw [hr] at hrun
    exact ⟨s', rfl, of_decide_eq_true hrun⟩

namespace Sample

def listingArgs : Config.SpokeAssetArgs where
  hubId := 1
  asset := 7
  spokeId := 1
  canCollateral := true
  canBorrow := true
  ltv := 7_500
  threshold := 8_000
  bonus := 500
  liquidationFees := 100
  supplyCap := 1_000_000_000_000
  borrowCap := 1_000_000_000_000
  paused := false
  frozen := false
  noSeize := false

/-- One market, listed in one spoke, and two accounts in it: the first supplies 1000 tokens and
borrows 500, the second supplies 300. -/
def calls : List ControllerCall :=
  [.unpause, .setPriceAggregator 9, .createHub, .createLiquidityPool 1 7 params, .addSpoke,
    .addAssetToSpoke listingArgs, .supply 5 0 1 [(key, 10_000_000_000)],
    .borrow 5 1 [(key, 5_000_000_000)] none, .supply 5 0 1 [(key, 3_000_000_000)]]

theorem calls_reachable {s : System Balances}
    (hrun : runCalls controllerHost 1_000 (.deployed opening) calls = .ok s) :
    s.Reachable controllerHost :=
  ⟨opening, 1_000, 1_000, runCalls_steps hrun⟩

end Sample

/-! ## Totals of all accounts -/

/-- **Account books equal pool totals.** In every system a run can reach, the supply shares of all
stored accounts add up to what the pool records less its own revenue, and the debt shares to what
it records as borrowed; a market the pool does not have is in no account. -/
theorem accounts_match_pool {s : System W} (hs : s.Reachable h) (market : HubAssetKey) :
    (∀ m, s.pool.markets.get? market = some m →
      s.store.totalShares .supply market = m.state.supplied - m.state.revenue ∧
      s.store.totalShares .borrow market = m.state.borrowed) ∧
    (s.pool.markets.get? market = none → ∀ side, s.store.totalShares side market = 0) := by
  refine ⟨fun m hget => ⟨?_, ?_⟩, fun hnone side => ?_⟩
  · rw [hs.totalShares, hget]
    rfl
  · rw [hs.totalShares, hget]
    rfl
  · rw [hs.totalShares, hnone]
    rfl

/-- Two accounts hold 1300 tokens' shares between them, as the pool says. -/
theorem accounts_match_pool_sample :
    ∃ (s : System Sample.Balances) (m : PoolSyncData),
      s.Reachable Sample.controllerHost ∧ s.pool.markets.get? Sample.key = some m ∧
      s.store.totalShares .supply Sample.key = 1_300 * ray ∧
      m.state.supplied - m.state.revenue = 1_300 * ray ∧ m.state.borrowed = 500 * ray := by
  obtain ⟨s, hrun, hsome, hsupply, hborrow⟩ : ∃ s : System Sample.Balances,
      runCalls Sample.controllerHost 1_000 (.deployed Sample.opening) Sample.calls = .ok s ∧
      (s.pool.markets.get? Sample.key).isSome = true ∧
      s.store.totalShares .supply Sample.key = 1_300 * ray ∧
      s.store.totalShares .borrow Sample.key = 500 * ray :=
    runCalls_ok (by decide +kernel)
  obtain ⟨m, hget⟩ := Option.isSome_iff_exists.mp hsome
  have hreach := Sample.calls_reachable hrun
  have hmatch := (accounts_match_pool hreach Sample.key).1 m hget
  exact ⟨s, m, hreach, hget, hsupply, hmatch.1 ▸ hsupply, hmatch.2 ▸ hborrow⟩

/-! ## Usage rows -/

namespace Config

theorem removeAssetFromSpoke_unused {s t : Invocation W} {market : HubAssetKey} {spokeId : Nat}
    {u : Unit} (hrun : (removeAssetFromSpoke market spokeId : Ctrl W Unit) s = .ok u t)
    (side : UsageSide) : s.store.usageOf spokeId market side = 0 := by
  replace hrun := store_bind_ok hrun
  obtain ⟨-, hrun⟩ := assertWithError_bind_ok hrun
  obtain ⟨⟨hsupplied, hborrowed⟩, -⟩ := assertWithError_bind_ok hrun
  unfold ControllerStore.usageOf
  cases hrow : s.store.getSpokeUsage spokeId market with
  | none => rfl
  | some usage =>
    rw [hrow] at hsupplied hborrowed
    cases side with
    | supply => exact hsupplied
    | borrow => exact hborrowed

end Config

/-- **Usage rows equal the accounts' shares.** In every system a run can reach, each row is the
sum over the accounts of its spoke. So whatever is called next, and however that ends, no exit
meets a row that is missing or too small; and an asset leaves a spoke only when none of the
spoke's accounts has a position in it. -/
theorem usage_matches_accounts {s : System W} (hs : s.Reachable h) :
    (∀ spokeId market side,
      s.store.usageOf spokeId market side = s.store.spokeShares spokeId side market) ∧
    (∀ (call : ControllerCall) timestamp, (call.ending h timestamp s).ExitsCovered) ∧
    ∀ market spokeId timestamp s',
      (ControllerCall.removeAssetFromSpoke market spokeId).exec h timestamp s = .ok s' →
      ∀ id m, s.store.metas.get? id = some m → m.spokeId = spokeId →
        ∀ side, ¬ s.store.Holds id market side := by
  refine ⟨fun spokeId market side => hs.spokeShares.symm,
    fun call timestamp => call.ending_covered hs.inBalance, ?_⟩
  intro market spokeId timestamp s' hexec id m hm hspoke side hholds
  obtain ⟨t, hbody, -⟩ := ControllerCall.exec_ok hexec
  have hunused : s.store.spokeShares m.spokeId side market = 0 := by
    rw [hspoke, hs.spokeShares]
    exact Config.removeAssetFromSpoke_unused hbody side
  have hle : s.store.sharesOf id side market ≤ s.store.spokeShares m.spokeId side market :=
    ControllerStore.sharesOf_le_spoke hs.wellFormed hm
  have hpos := ControllerStore.sharesOf_pos hs.wellFormed hholds
  omega

/-- The row of the spoke has the shares of both accounts; a withdrawal of everything finds them
there. -/
theorem usage_matches_accounts_sample :
    ∃ s : System Sample.Balances, s.Reachable Sample.controllerHost ∧
      s.store.spokeShares 1 .supply Sample.key = 1_300 * ray ∧
      s.store.usageOf 1 Sample.key .supply = 1_300 * ray ∧
      ((ControllerCall.withdraw 5 2 [(Sample.key, 0)] none).ending Sample.controllerHost 1_000
        s).ExitsCovered := by
  obtain ⟨s, hrun, hsupply⟩ : ∃ s : System Sample.Balances,
      runCalls Sample.controllerHost 1_000 (.deployed Sample.opening) Sample.calls = .ok s ∧
      s.store.spokeShares 1 .supply Sample.key = 1_300 * ray :=
    runCalls_ok (by decide +kernel)
  have hreach := Sample.calls_reachable hrun
  have hrows := usage_matches_accounts hreach
  exact ⟨s, hreach, hsupply, (hrows.1 1 Sample.key .supply).trans hsupply, hrows.2.1 _ _⟩

/-! ## Accounts -/

/-- The shape of an account: few positions, none of them empty, and a supply market below three
decimals stands alone. -/
structure System.AccountShape (s : System W) (id : Nat) : Prop where
  supplyLimit : (s.store.getSupplyPositions id).size ≤ positionLimitMax
  debtLimit : (s.store.getDebtPositions id).size ≤ positionLimitMax
  supplyShares : ∀ market position, (s.store.getSupplyPositions id).get? market = some position →
    position.scaledAmount ≠ 0
  debtShares : ∀ market position, (s.store.getDebtPositions id).get? market = some position →
    position.scaledAmount ≠ 0
  isolated : ∀ market, market ∈ (s.store.getSupplyPositions id).keys →
    ∃ m, s.pool.markets.get? market = some m ∧
      (m.params.assetDecimals < 3 → ∀ market' ∈ (s.store.getSupplyPositions id).keys,
        market' = market)

namespace System

variable {s : System W}

/-- A supply position is in a market the pool has. -/
theorem Reachable.market_of_supply (hs : s.Reachable h) {id : Nat} {market : HubAssetKey}
    (hk : market ∈ (s.store.getSupplyPositions id).keys) :
    ∃ m, s.pool.markets.get? market = some m := by
  cases hm : s.store.metas.get? id with
  | none =>
    have hempty : s.store.getSupplyPositions id = .empty := by
      rw [ControllerStore.getSupplyPositions, (hs.wellFormed.orphan id hm).1, Option.getD_none]
    rw [hempty] at hk
    cases hk
  | some m =>
    have hloaded : Loaded id (s.store.account id 0 m) { toSystem := s, cache := {} } :=
      ⟨⟨m, hm, rfl⟩, rfl, rfl⟩
    have hkeys : market ∈ (s.store.account id 0 m).keysOf .supply := List.mem_toFinset.mpr hk
    exact Option.ne_none_iff_exists'.mp (hs.inBalance.listed hloaded hkeys)

theorem Reachable.accountShape (hs : s.Reachable h) (id : Nat) : s.AccountShape id := by
  have hsound := hs.wellFormed.sound id 0 ⟨0, .normal⟩
  have hsupply : KeysFit s.pool.decimals .supply (s.store.getSupplyPositions id).keys.toFinset :=
    hsound.fits .supply
  have hdebt : KeysFit s.pool.decimals .borrow (s.store.getDebtPositions id).keys.toFinset :=
    hsound.fits .borrow
  have hcard : ∀ {V : Type} (m : SortedMap HubAssetKey V), m.keys.toFinset.card = m.size :=
    fun m => (List.toFinset_card_of_nodup m.nodup_keys).trans m.length_keys
  refine ⟨hcard _ ▸ hsupply.limit, hcard _ ▸ hdebt.limit,
    fun market p hget => (hsound.positive.supply hget).ne',
    fun market p hget => (hsound.positive.debt hget).ne', fun market hk => ?_⟩
  obtain ⟨m, hget⟩ := hs.market_of_supply hk
  refine ⟨m, hget, fun hlt market' hk' => ?_⟩
  exact hsupply.isolated rfl market (List.mem_toFinset.mpr hk) m.params.assetDecimals
    (by rw [PoolCtx.decimals, hget, Option.map_some]) hlt market' (List.mem_toFinset.mpr hk')

/-- An id that was handed out and has no account gets none again. -/
theorem Evolves.stays_free {s' : System W} (he : s.Evolves s') (hs : s.WellFormed)
    (hs' : s'.WellFormed) {id : Nat} (hid : id < s.nft.nextTokenId)
    (hfree : s.nft.tokens.contains id = false) : s'.nft.tokens.contains id = false := by
  rw [← Bool.not_eq_true]
  intro hlive
  rw [← hs'.live] at hlive
  obtain ⟨m, hm⟩ := SortedMap.contains_iff.mp hlive
  have hbefore : s.store.metas.contains id = true :=
    SortedMap.contains_iff.mpr ⟨m, he.metas id hid m hm⟩
  rw [hs.live, hfree] at hbefore
  cases hbefore

theorem Evolves.same_binding {s' : System W} (he : s.Evolves s') (hs : s.WellFormed) {id : Nat}
    {m m' : AccountMeta} (hm : s.store.metas.get? id = some m)
    (hm' : s'.store.metas.get? id = some m') : m' = m := by
  have hlive : s.nft.tokens.contains id = true := by
    rw [← hs.live]
    exact SortedMap.contains_iff.mpr ⟨m, hm⟩
  have hbefore := he.metas id (hs.fresh id hlive) m' hm'
  rw [hm] at hbefore
  exact (Option.some.inj hbefore).symm

end System

/-- **Account structure.** In every system a run can reach, every account has its shape, and there
is a record for an id exactly when the NFT of that id exists. In any run from there an account
stays bound to its spoke, and an id that was handed out and has no NFT gets none again. -/
theorem account_structure {s : System W} (hs : s.Reachable h) :
    (∀ id, s.AccountShape id) ∧
    (∀ id, s.store.metas.contains id = s.nft.tokens.contains id) ∧
    (∀ id, s.nft.tokens.contains id = true → id < s.nft.nextTokenId) ∧
    ∀ timestamp s' timestamp', ControllerSteps h (s, timestamp) (s', timestamp') →
      s.nft.nextTokenId ≤ s'.nft.nextTokenId ∧
      (∀ id m m', s.store.metas.get? id = some m → s'.store.metas.get? id = some m' →
        m'.spokeId = m.spokeId) ∧
      ∀ id < s.nft.nextTokenId, s.nft.tokens.contains id = false →
        s'.nft.tokens.contains id = false := by
  have hwf := hs.wellFormed
  refine ⟨fun id => hs.accountShape id, hwf.live, hwf.fresh, fun timestamp s' timestamp' hsteps => ?_⟩
  have hrun := hsteps.inBalance hs.inBalance
  refine ⟨hrun.evolves.counter, fun id m m' hm hm' => ?_, fun id hid hfree => ?_⟩
  · rw [hrun.evolves.same_binding hwf hm hm']
  · exact hrun.evolves.stays_free hwf hrun.wellFormed hid hfree

/-- The second account is emptied: its NFT is gone, and stays gone in every run from there. -/
theorem account_structure_sample :
    ∃ s s' : System Sample.Balances, s.Reachable Sample.controllerHost ∧ s.nft.tokens.contains 2 = true ∧
      ControllerSteps Sample.controllerHost (s, 1_000) (s', 1_000) ∧
      s'.store.metas.contains 2 = false ∧ s'.nft.nextTokenId = 3 ∧
      ∀ s'' timestamp, ControllerSteps Sample.controllerHost (s', 1_000) (s'', timestamp) →
        s''.nft.tokens.contains 2 = false := by
  obtain ⟨s, hrun, hlive, hany⟩ : ∃ s : System Sample.Balances,
      runCalls Sample.controllerHost 1_000 (.deployed Sample.opening) Sample.calls = .ok s ∧
      s.nft.tokens.contains 2 = true ∧
      (runCalls Sample.controllerHost 1_000 s
        [.withdraw 5 2 [(Sample.key, 0)] none]).toOption.any
        (fun s' => s'.nft.tokens.contains 2 = false ∧ s'.nft.nextTokenId = 3) = true :=
    runCalls_ok (by decide +kernel)
  obtain ⟨s', hrun', hfree, hnext⟩ := runCalls_ok hany
  have hreach := Sample.calls_reachable hrun
  have hsteps := runCalls_steps hrun'
  have hreach' : s'.Reachable Sample.controllerHost :=
    ⟨Sample.opening, 1_000, 1_000, (runCalls_steps hrun).trans hsteps⟩
  obtain ⟨-, hsame, -, hruns⟩ := account_structure hreach'
  refine ⟨s, s', hreach, hlive, hsteps, (hsame 2).trans hfree, hnext, fun s'' timestamp hsteps' => ?_⟩
  exact (hruns 1_000 s'' timestamp hsteps').2.2 2 (by omega) hfree

end Lending
