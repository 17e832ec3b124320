import LendingXlm.Controller.Conservation
import LendingXlm.Controller.Gates

/-!
# Liquidations that are refused

A liquidation values the account on its own path: it reads the account and the prices afresh and
asks for a health factor below one. At the marks at which positions clear the gates it computes
the totals the gates computed, so it is refused.
-/

namespace Lending

open Transaction Ctrl Invocation

variable {W : Type} {h : ControllerHost W} {timestamp : Nat} {v : Marks}

/-! ## Prices at marks -/

/-- In the world `w` the aggregator reports the prices of the marks. -/
def ControllerHost.Prices (h : ControllerHost W) (v : Marks) (markets : List HubAssetKey) (w : W) :
    Prop :=
  ∀ market ∈ markets, ∀ aggregator feed, h.price w aggregator market.asset = .ok feed →
    feed.price = v.price market.asset

/-- The host, with an aggregator that answers at the prices of the marks only. -/
def ControllerHost.priced (h : ControllerHost W) (v : Marks) : ControllerHost W :=
  { h with
    price := fun w aggregator asset => do
      let feed ← h.price w aggregator asset
      require (feed.price = v.price asset) .internalError
      return feed }

theorem ControllerHost.priced_reported {asset : Address} {feed : PriceFeed}
    (hf : (h.priced v).Reported asset feed) : feed.price = v.price asset := by
  obtain ⟨w, aggregator, hok⟩ := hf
  obtain ⟨feed', -, hok⟩ := Fallible.bind_ok hok
  obtain ⟨_, hprice, hok⟩ := Fallible.bind_ok hok
  cases hok
  exact Fallible.require_ok_iff.mp hprice

/-- Where the aggregator reports those prices, nothing is left out. -/
theorem ControllerHost.priced_price {w : W} {asset : Address}
    (hp : ∀ aggregator feed, h.price w aggregator asset = .ok feed → feed.price = v.price asset)
    (aggregator : Address) : (h.priced v).price w aggregator asset = h.price w aggregator asset := by
  show (do
    let feed ← h.price w aggregator asset
    require (feed.price = v.price asset) .internalError
    return feed : Result PriceFeed) = h.price w aggregator asset
  cases hok : h.price w aggregator asset with
  | error e => rfl
  | ok feed =>
    rw [Fallible.ok_bind, Fallible.require_pos (hp aggregator feed hok)]
    rfl

namespace Context

theorem mem_uniqueHubTokens {keys : List HubAssetKey} {asset : Address}
    (ha : asset ∈ uniqueHubTokens keys) : ∃ key ∈ keys, key.asset = asset := by
  suffices hsuf : ∀ (l : List HubAssetKey) (acc : List Address),
      asset ∈ l.foldl (fun assets key =>
        if key.asset ∈ assets then assets else assets ++ [key.asset]) acc →
      asset ∈ acc ∨ ∃ key ∈ l, key.asset = asset from
    (hsuf keys [] ha).resolve_left List.not_mem_nil
  intro l
  induction l with
  | nil => exact fun acc hacc => .inl hacc
  | cons key l ih =>
    intro acc hmem
    rw [List.foldl_cons] at hmem
    rcases ih _ hmem with hacc | ⟨key', hkey', rfl⟩
    · split at hacc
      · exact .inl hacc
      · rcases List.mem_append.mp hacc with hacc | hacc
        · exact .inl hacc
        · exact .inr ⟨key, List.mem_cons_self, (List.mem_singleton.mp hacc).symm⟩
    · exact .inr ⟨key', List.mem_cons_of_mem _ hkey', rfl⟩

theorem fetchPrice_priced {asset : Address} {s : Invocation W}
    (hp : ∀ aggregator feed, h.price s.pool.world aggregator asset = .ok feed →
      feed.price = v.price asset) :
    fetchPrice (h.priced v) asset s = fetchPrice h asset s :=
  congrArg (fun price : Address → Result PriceFeed => (do
    let aggregator ← unwrapOr s.store.priceAggregator .aggregatorNotSet
    let feed ← price aggregator
    modifyCache fun c => { c with tokenPrices := c.tokenPrices.set asset feed } : Ctrl W Unit) s)
    (funext (ControllerHost.priced_price hp))

/-- Fetching moves no world. -/
theorem fetchAll_priced {assets : List Address} {s : Invocation W}
    (hp : ∀ asset ∈ assets, ∀ aggregator feed,
      h.price s.pool.world aggregator asset = .ok feed → feed.price = v.price asset) :
    assets.foldlM (fun _ asset => fetchPrice (h.priced v) asset) () s =
      assets.foldlM (fun _ asset => fetchPrice h asset) () s := by
  induction assets generalizing s with
  | nil => rfl
  | cons asset assets ih =>
    rw [List.foldlM_cons, List.foldlM_cons]
    show EStateM.bind _ _ s = EStateM.bind _ _ s
    unfold EStateM.bind
    rw [fetchPrice_priced (hp asset List.mem_cons_self)]
    cases hrun : fetchPrice h asset s with
    | error e s' => rfl
    | ok u s' =>
      refine ih fun asset' hmem => ?_
      have hreads : ReadsOnly h 0 (fetchPrice h asset) := fetchPrice_reads
      have hsys : s'.toSystem = s.toSystem := (hreads.ok hrun).system
      rw [show s'.pool = s.pool from congrArg System.pool hsys]
      exact hp asset' (List.mem_cons_of_mem _ hmem)

/-- Markets are loaded as from the host that answers at the marks. -/
theorem loadMarkets_priced {markets : List HubAssetKey} {s : Invocation W}
    (hp : h.Prices v markets s.pool.world) :
    loadMarkets (h.priced v) timestamp markets s = loadMarkets h timestamp markets s := by
  have hfetch : fetchPrices (h.priced v) (uniqueHubTokens markets) s =
      fetchPrices h (uniqueHubTokens markets) s := by
    refine fetchAll_priced fun asset hmem => ?_
    obtain ⟨hreq, -⟩ := ((collectUncachedKeys_spec _ _).2 asset).mp hmem
    obtain ⟨key, hkey, rfl⟩ := mem_uniqueHubTokens hreq
    exact hp key hkey
  show EStateM.bind _ _ s = EStateM.bind _ _ s
  unfold EStateM.bind
  rw [hfetch]

end Context

theorem Risk.calculateAccountRiskTotals_priced
    {supply : SortedMap HubAssetKey AccountPosition} {debt : SortedMap HubAssetKey DebtPosition}
    {s : Invocation W} (hp : h.Prices v (supply.keys ++ debt.keys) s.pool.world) :
    calculateAccountRiskTotals (h.priced v) timestamp supply debt s =
      calculateAccountRiskTotals h timestamp supply debt s := by
  show EStateM.bind _ _ s = EStateM.bind _ _ s
  unfold EStateM.bind
  rw [Context.loadMarkets_priced hp]

/-! ## Refusal -/

namespace Liquidation

/-- A liquidation that has asked for no price yet. -/
structure Unpriced (h : ControllerHost W) (timestamp : Nat) (v : Marks) (base : System W) (w : W)
    (s : Invocation W) : Prop where
  markets : s.pool.markets = base.pool.markets
  world : s.pool.world = w
  quoted : s.Quoted (h.priced v) timestamp

variable {base : System W} {w : W} {id : Nat} {liquidator : Address} {a : Account}

theorem Unpriced.reads {s s' : Invocation W} (hr : Reads (h.priced v) timestamp s s')
    (hs : Unpriced h timestamp v base w s) : Unpriced h timestamp v base w s' := by
  have hpool : s'.pool = s.pool := congrArg System.pool hr.system
  exact ⟨hpool ▸ hs.markets, hpool ▸ hs.world, hr.quoted hs.quoted⟩

/-- A read of anything but prices. -/
theorem Unpriced.skip {α β : Type} {x : Ctrl W α} {f : α → Ctrl W β}
    {R : β → Invocation W → Prop} (hx : ReadsOnly (h.priced v) timestamp x)
    (hf : ∀ a, Leaves (Unpriced h timestamp v base w) (f a) R) :
    Leaves (Unpriced h timestamp v base w) (x >>= f) R :=
  .step (Within.along hx fun _ _ hr hs => hs.reads hr) fun a _ => hf a

/-- The world after an account may have been opened in it. -/
def Receiving (h : ControllerHost W) (w w' : W) : Prop :=
  w' = w ∨ ∃ nftId owner, w' = h.nftAssign w nftId owner

theorem createAccountWith_unpriced {owner : Address} {spokeId : Nat} {mode : PositionMode} :
    Leaves (Unpriced h timestamp v base w)
      (Account.createAccountWith h owner spokeId mode .allowDeprecated) fun _ s =>
        ∃ w', Receiving h w w' ∧ Unpriced h timestamp v base w' s := by
  refine Leaves.assert fun _ => Unpriced.skip Context.spokeConfig_reads fun _ =>
    Ends.bind (Q := fun _ s => ∃ w', Receiving h w w' ∧ Unpriced h timestamp v base w' s) ?_
    fun id => Ends.bind (Q := fun _ s => ∃ w', Receiving h w w' ∧
      Unpriced h timestamp v base w' s) (Ends.modify ?_) fun _ => Ends.pure fun _ hs => hs
  · refine Ends.get_bind fun t ht => Leaves.assert fun _ => Ends.bind (Q := fun _ s =>
      ∃ w', Receiving h w w' ∧ Unpriced h timestamp v base w' s) (Ends.modify ?_) fun _ =>
      Ends.pure fun _ hs => hs
    rintro s rfl
    exact ⟨h.nftAssign s.pool.world s.nft.nextTokenId owner,
      .inr ⟨s.nft.nextTokenId, owner, by rw [ht.world]⟩, ht.markets, rfl,
      ht.quoted.congr rfl rfl rfl⟩
  · rintro s ⟨w', hw, hs⟩
    exact ⟨w', hw, hs.markets, hs.world, hs.quoted.congr rfl rfl rfl⟩

theorem resolveSeizeReceiver_unpriced {mode : SeizeMode} :
    Leaves (Unpriced h timestamp v base w) (resolveSeizeReceiver h liquidator id a mode)
      fun _ s => ∃ w', Receiving h w w' ∧ Unpriced h timestamp v base w' s := by
  cases mode with
  | transfer => exact Ends.pure fun s hs => ⟨w, .inl rfl, hs⟩
  | credit requested =>
    refine Ends.ite (fun _ => Ends.bind createAccountWith_unpriced fun _ =>
      Ends.pure fun _ hs => hs) fun _ => ?_
    exact Unpriced.skip (loadCreditReceiver_reads (h := h.priced v)) fun _ =>
      Unpriced.skip Account.requireOwnerOrDelegate_reads fun _ => Ends.pure fun s hs => ⟨w, .inl rfl, hs⟩

/-- The totals a liquidation computes are those the marks give. -/
theorem liquidationSnapshot_refused
    (hhealthy : ∀ totals, v.totals a.supplyPositions a.borrowPositions = .ok totals →
      wad ≤ totals.healthFactor)
    (hindex : ∀ market ∈ a.supplyPositions.keys ++ a.borrowPositions.keys, ∀ index,
      base.pool.CurrentIndex timestamp market index → v.index market = index)
    (hp : h.Prices v (a.supplyPositions.keys ++ a.borrowPositions.keys) w) :
    Leaves (Unpriced h timestamp v base w) (liquidationSnapshot h timestamp a)
      fun _ _ => False := by
  refine Ends.bind (Q := fun totals _ => v.totals a.supplyPositions a.borrowPositions = .ok totals)
    (fun s hs => ?_) fun totals => Leaves.assert fun hhf s htotals => ?_
  · have heq : Risk.calculateAccountRiskTotals (h.priced v) timestamp a.supplyPositions
        a.borrowPositions s = _ := Risk.calculateAccountRiskTotals_priced (hs.world ▸ hp)
    have hends : Ends (Quoted (h.priced v) timestamp) _ (Risk.calculateAccountRiskTotals
        (h.priced v) timestamp a.supplyPositions a.borrowPositions) _ :=
      Risk.calculateAccountRiskTotals_totals
    have htotals := hends s hs.quoted
    rw [← heq]
    cases hrun : Risk.calculateAccountRiskTotals (h.priced v) timestamp a.supplyPositions
      a.borrowPositions s with
    | error e s' => trivial
    | ok totals s' =>
      rw [hrun] at htotals
      have hat := hs.reads (Risk.calculateAccountRiskTotals_reads.ok hrun)
      refine htotals.2 v ⟨?_, fun market _ feed hfeed =>
        ControllerHost.priced_reported (htotals.1.price hfeed)⟩
      rintro market hmem index ⟨now, m, hnow, hget, hsim⟩
      exact hindex market hmem index ⟨now, m, hnow, hat.markets ▸ hget, hsim⟩
  · exact absurd hhf (not_lt.mpr (hhealthy totals htotals))

/-- **Refusal.** An account that is healthy at the marks, or owes nothing, is not liquidated. -/
theorem processLiquidation_healthy {payments : List HubPayment} {mode : SeizeMode}
    (hhealthy : (base.store.getDebtPositions id).isEmpty = true ∨ ∀ totals,
      v.totals (base.store.getSupplyPositions id) (base.store.getDebtPositions id) = .ok totals →
        wad ≤ totals.healthFactor)
    (hindex : ∀ market ∈ (base.store.getSupplyPositions id).keys ++
      (base.store.getDebtPositions id).keys, ∀ index,
      base.pool.CurrentIndex timestamp market index → v.index market = index)
    (hp : ∀ w, Receiving h base.pool.world w → h.Prices v ((base.store.getSupplyPositions id).keys ++
      (base.store.getDebtPositions id).keys) w) :
    Leaves (· = { toSystem := base, cache := {} })
      (processLiquidation h timestamp liquidator id payments mode) fun _ _ => False := by
  suffices hsuf : Leaves (fun s => s.store = base.store ∧
      Unpriced h timestamp v base base.pool.world s)
      (processLiquidation h timestamp liquidator id payments mode) fun _ _ => False from
    hsuf.pre <| by
      rintro s rfl
      exact ⟨rfl, rfl, rfl, quoted_fresh rfl rfl⟩
  have hkeep : ∀ s s' : Invocation W, Reads (h.priced v) timestamp s s' →
      s.store = base.store ∧ Unpriced h timestamp v base base.pool.world s →
      s'.store = base.store ∧ Unpriced h timestamp v base base.pool.world s' :=
    fun s s' hr hs => ⟨(congrArg System.store hr.system).trans hs.1, hs.2.reads hr⟩
  have hget : Within (fun s => s.store = base.store ∧
      Unpriced h timestamp v base base.pool.world s) (Storage.getAccount (h.priced v) id) _ :=
    Positions.getAccount_within (fun _ hs => hs.1) hkeep
  refine .step (Within.along Risk.requireNotFlashLoaning_reads hkeep) fun _ _ =>
    .step hget fun a ha => .result fun _ _ => ?_
  rw [ha.1, ha.2] at hhealthy hindex hp
  refine Ends.bind (Ends.pre resolveSeizeReceiver_unpriced fun _ hs => hs.2) fun receiver => ?_
  refine Ends.bind (Q := fun _ _ => False) ?_ fun _ s hs => hs.elim
  rintro s ⟨w, hw, hs⟩
  refine Ends.bind (Q := fun _ _ => False) ?_ (fun _ s hs => hs.elim) s hs
  refine Leaves.assert fun hdebt => Unpriced.skip (.foldlM (fun _ _ =>
    Positions.enforceSpokeAssetFlags_reads) ()) fun _ =>
    Ends.bind (liquidationSnapshot_refused ?_ hindex (hp w hw)) fun _ s hs => hs.elim
  exact hhealthy.resolve_left hdebt

theorem processLiquidation_refused {payments : List HubPayment} {mode : SeizeMode}
    (hclears : v.Clears (base.store.getSupplyPositions id) (base.store.getDebtPositions id))
    (hindex : ∀ market ∈ (base.store.getSupplyPositions id).keys ++
      (base.store.getDebtPositions id).keys,
      base.pool.CurrentIndex timestamp market (v.index market))
    (hp : ∀ w, Receiving h base.pool.world w → h.Prices v ((base.store.getSupplyPositions id).keys ++
      (base.store.getDebtPositions id).keys) w) :
    Leaves (· = { toSystem := base, cache := {} })
      (processLiquidation h timestamp liquidator id payments mode) fun _ _ => False := by
  refine processLiquidation_healthy (hclears.imp_right ?_)
    (fun market hmem _ hcur => (hindex market hmem).unique hcur) hp
  rintro ⟨totals, htotals, -, hone⟩ totals' htotals'
  obtain rfl : totals = totals' := Except.ok.inj (htotals.symm.trans htotals')
  exact hone

end Liquidation

/-! ## Risk gates -/

namespace ControllerStore

/-- The markets an account holds, on either side. -/
def heldMarkets (s : ControllerStore) (id : Nat) : List HubAssetKey :=
  (s.getSupplyPositions id).keys ++ (s.getDebtPositions id).keys

end ControllerStore

/-- Stored positions are worth what is not negative. -/
theorem System.WellFormed.nonneg {s : System W} (hs : s.WellFormed)
    (hrun : MarketsRun timestamp s.pool.markets) {id : Nat} (hprices : ∀ asset, 0 ≤ v.price asset)
    (hindex : ∀ market ∈ s.store.heldMarkets id,
      s.pool.CurrentIndex timestamp market (v.index market)) :
    v.Nonneg (s.store.getSupplyPositions id) (s.store.getDebtPositions id) := by
  have hpos := (hs.sound id 0 ⟨0, .normal⟩).positive
  refine ⟨hprices, fun e he => ?_, fun e he => ?_⟩
  · have hmem : e.1 ∈ s.store.heldMarkets id := List.mem_append_left _ (List.mem_map_of_mem he)
    exact ⟨(hpos.supply (SortedMap.mem_entries.mp he)).le,
      (Liquidation.supplyIndex_pos hrun (hindex _ hmem)).le⟩
  · have hmem : e.1 ∈ s.store.heldMarkets id := List.mem_append_right _ (List.mem_map_of_mem he)
    exact ⟨(hpos.debt (SortedMap.mem_entries.mp he)).le,
      (Liquidation.borrowIndex_pos hrun (hindex _ hmem)).le⟩

/-- **The risk gates are conservative.** After a gated call the stored debt is covered, in exact
arithmetic at the marks the call was gated at, by the collateral at its loan-to-value shares and at
its liquidation thresholds; and while the positions and the marks stand, liquidating the account
is refused. -/
theorem risk_gate_conservative {w : W} {t₀ t₁ : Nat} {s : System W}
    (hsteps : ControllerSteps h (.deployed w, t₀) (s, t₁)) (hle : t₁ ≤ timestamp)
    {call : ControllerCall} {id : Nat} (hid : call.gated s.nft = some id) {t : Invocation W}
    (hrun : call.body h timestamp { toSystem := s, cache := {} } = .ok () t)
    (hprices : ∀ asset, 0 ≤ v.price asset) (hv : t.Marked timestamp v (t.store.heldMarkets id)) :
    v.exactDebt (t.store.getDebtPositions id) ≤
        v.exactCollateral AccountPosition.loanToValue (t.store.getSupplyPositions id) ∧
      v.exactDebt (t.store.getDebtPositions id) ≤
        v.exactCollateral AccountPosition.liquidationThreshold (t.store.getSupplyPositions id) ∧
      ∀ s' : System W,
        s'.store.getSupplyPositions id = t.store.getSupplyPositions id →
        s'.store.getDebtPositions id = t.store.getDebtPositions id →
        (∀ market ∈ t.store.heldMarkets id,
          s'.pool.CurrentIndex timestamp market (v.index market)) →
        (∀ w', Liquidation.Receiving h s'.pool.world w' →
          h.Prices v (t.store.heldMarkets id) w') →
        ∀ liquidator payments mode s'',
          (ControllerCall.liquidate liquidator id payments mode).exec h timestamp s' ≠ .ok s'' := by
  have hmarkets : MarketsRun timestamp s.pool.markets :=
    (ControllerSteps.markets h hsteps (System.deployed_markets w)).mono hle
  have hworking : Working h timestamp s.store s.nft s.pool { toSystem := s, cache := {} } :=
    ⟨rfl, rfl, .refl hmarkets, quoted_fresh rfl rfl⟩
  have hgated : t.Gated timestamp id := (call.body_gated hid).ok hworking hrun
  have hclears := hgated v hv.agrees
  have hexec : call.exec h timestamp s = .ok t.toSystem := by
    unfold ControllerCall.exec
    rw [hrun]
  have hreach : System.Reachable h t.toSystem :=
    ⟨w, t₀, timestamp, hsteps.tail (.call call hle hexec)⟩
  have hmarkets' : MarketsRun timestamp t.pool.markets := call.body_markets h hrun hmarkets
  have hnonneg := hreach.inBalance.wellFormed.nonneg hmarkets' hprices hv.index
  obtain ⟨hltv, hlt⟩ := hclears.exact hnonneg
  refine ⟨hltv.trans (Marks.exactCollateral_mono hnonneg fun _ => min_le_left _ _), hlt, ?_⟩
  intro s' hsupply hdebt hindex hworld liquidator payments mode s'' hliquidate
  obtain ⟨t', hbody, -⟩ := ControllerCall.exec_ok hliquidate
  have hrefused : Leaves (· = { toSystem := s', cache := {} })
      (Liquidation.processLiquidation h timestamp liquidator id payments mode) fun _ _ => False :=
    Liquidation.processLiquidation_refused (by rwa [hsupply, hdebt]) (by rwa [hsupply, hdebt])
      (by rwa [hsupply, hdebt])
  exact Ends.ok hrefused.drop rfl hbody

/-- A hundred more tokens borrowed against a thousand; the debt of six hundred is covered. -/
theorem risk_gate_conservative_sample :
    let v : Marks := ⟨fun _ => wad, fun _ => ⟨ray, ray⟩⟩
    ∃ t : Invocation Sample.Balances,
      v.exactDebt (t.store.getDebtPositions 1) ≤
          v.exactCollateral AccountPosition.loanToValue (t.store.getSupplyPositions 1) ∧
        ∀ liquidator payments mode s'',
          (ControllerCall.liquidate liquidator 1 payments mode).exec Sample.controllerHost 1_000
            t.toSystem ≠ .ok s'' := by
  intro v
  obtain ⟨s, hrun, hbody⟩ : ∃ s : System Sample.Balances,
      runCalls Sample.controllerHost 1_000 (.deployed Sample.opening) Sample.calls = .ok s ∧
      (match (ControllerCall.borrow 5 1 [(Sample.key, 1_000_000_000)] none).body
          Sample.controllerHost 1_000 { toSystem := s, cache := {} } with
        | .ok _ t => decide (t.store.heldMarkets 1 = [Sample.key, Sample.key] ∧
            (t.pool.markets.get? Sample.key).map (simulateUpdateIndexes 1_000_000) =
              some (.ok ⟨ray, ray⟩) ∧
            (t.cache.tokenPrices.get? Sample.key.asset).map PriceFeed.price = some wad)
        | .error _ _ => false) = true :=
    runCalls_ok (by decide +kernel)
  split at hbody
  · rename_i t ht
    obtain ⟨hheld, hindex, hprice⟩ := of_decide_eq_true hbody
    obtain ⟨m, hm, hsim⟩ := Option.map_eq_some_iff.mp hindex
    have hcur : ∀ market ∈ t.store.heldMarkets 1,
        t.pool.CurrentIndex 1_000 market (v.index market) := by
      rw [hheld]
      intro market hmem
      obtain rfl : market = Sample.key := by simpa using hmem
      exact ⟨1_000_000, m, by decide, hm, hsim⟩
    have hmarked : t.Marked 1_000 v (t.store.heldMarkets 1) := by
      refine ⟨hcur, fun market hmem feed hfeed => ?_⟩
      rw [hheld] at hmem
      obtain rfl : market = Sample.key := by simpa using hmem
      rw [hfeed] at hprice
      exact Option.some.inj hprice
    have hgated : (ControllerCall.borrow 5 1 [(Sample.key, 1_000_000_000)] none).gated s.nft =
      some 1 := rfl
    have hsafe := risk_gate_conservative (runCalls_steps hrun) le_rfl hgated ht
      (fun _ => wad_pos.le) hmarked
    refine ⟨t, hsafe.1, fun liquidator payments mode s'' => hsafe.2.2 t.toSystem rfl rfl hcur ?_
      liquidator payments mode s''⟩
    intro w' hw market hmem aggregator feed hfeed
    cases hfeed
    rfl
  · cases hbody

end Lending
