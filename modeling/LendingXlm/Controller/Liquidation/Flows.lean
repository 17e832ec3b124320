import LendingXlm.Controller.Flows

/-!
# Flows of a liquidation

A liquidation works on the liquidated account and, when the seizures are credited as shares, on
the account that receives them. Until a credited fee is handed to the pool, the pool counts it as
shares of nobody; a written-off account leaves the rows first, then the pool, then storage.

* `applyLiquidationRepayments_keeps`, `applyLiquidationSeizures_keeps`: repayments and payouts;
* `applyLiquidationShareCredit_keeps`: shares move between two accounts, the fee to the pool;
* `executeBadDebtCleanup_keeps`: nothing of the account is left;
* `processLiquidation_keeps`, `processCleanBadDebt_keeps`, `processForceSocializeBadDebt_keeps`.
-/

namespace Lending

open Transaction Ctrl Invocation Books Positions

variable {W : Type} {h : ControllerHost W} {timestamp : Nat}

variable {base : System W} {spokeId : Nat} {others : Books} {a : Account}

/-- What is recorded is the shares of both accounts, whichever is looked at. -/
theorem InHand.swap {r : Account} {s : Invocation W}
    (hs : InHand base spokeId (others + r.books) a s)
    (hrows : ∀ spokeId side market, 0 ≤ others ⟨some spokeId, side, market⟩)
    (hr : r.Sound base.pool.decimals) (hspoke : r.spokeId = spokeId) :
    InHand base spokeId (others + a.books) r s := by
  refine ⟨⟨hs.store, hs.nft, hs.decimals, hspoke, hr.positive, fun id side market => ?_, ?_⟩,
    hr.fits⟩
  · exact add_nonneg (hrows id side market) (hs.positive.books_nonneg _)
  · rw [hs.books]
    abel

namespace Liquidation

/-! ## Repayments and payouts -/

theorem pullLiquidationRepayment_keeps {liquidator : Address} {offered : Option (List HubPayment)}
    {acc : PullAcc} {entry : RepayEntry}
    (hold : ∀ e ∈ acc.actions, a.Holds .borrow e.hubAsset e.position.scaledAmount) :
    Keeps (InHand base spokeId others a)
      (pullLiquidationRepayment h liquidator a offered acc entry)
      fun acc' s => InHand base spokeId others a s ∧
        ∀ e ∈ acc'.actions, a.Holds .borrow e.hubAsset e.position.scaledAmount := by
  refine .read h 0 inHand_stable enforceSpokeAssetFlags_reads fun _ => .result fun _ _ =>
    .skip inHand_stable Payments.transferAmountMeasured_outward.quiet fun _ => .result fun _ _ =>
    .result fun _ _ => .unwrap fun position hget => .pure fun s hs => ⟨hs, fun e he => ?_⟩
  rcases List.mem_append.mp he with he | he
  · exact hold e he
  · rw [List.mem_singleton.mp he]
    exact a.holds_debt hget

theorem applyLiquidationRepayments_keeps {liquidator : Address} {repaid : List RepayEntry}
    {offered : Option (List HubPayment)} :
    Keeps (InHand base spokeId others a)
      (applyLiquidationRepayments h timestamp liquidator a repaid offered)
      fun r s => InHand base spokeId others r.1 s ∧ a.SameBesides .borrow r.1 := by
  refine .bind (Q := fun acc s => InHand base spokeId others a s ∧ ∀ e ∈ acc.actions,
    a.Holds .borrow e.hubAsset e.position.scaledAmount) ?_ fun acc =>
    .fact fun hold => .bind (applyRepayBatch_keeps hold) fun _ => .pure fun s hs => hs
  have hloop := Keeps.foldlM (l := repaid) (f := pullLiquidationRepayment h liquidator a offered)
    (P := fun acc _ s => InHand base spokeId others a s ∧ ∀ e ∈ acc.actions,
      a.Holds .borrow e.hubAsset e.position.scaledAmount)
    (fun _ _ _ _ => .fact fun hold => pullLiquidationRepayment_keeps hold) ⟨[], Wad.zero⟩
  exact hloop.pre fun s hs => ⟨hs, fun e he => by cases he⟩

theorem seizureEntry_keeps (h : ControllerHost W) {entries : List PoolWithdrawEntry}
    {entry : SeizeEntry}
    (hold : ∀ e ∈ entries, a.Holds .supply e.action.hubAsset e.action.position.scaledAmount) :
    Keeps (InHand base spokeId others a) (seizureEntry a entries entry)
      fun entries s => InHand base spokeId others a s ∧
        ∀ e ∈ entries, a.Holds .supply e.action.hubAsset e.action.position.scaledAmount := by
  refine .read h 0 inHand_stable enforceSpokeAssetFlags_reads fun _ =>
    .unwrap fun position hget => .pure fun s hs => ⟨hs, fun e he => ?_⟩
  rcases List.mem_append.mp he with he | he
  · exact hold e he
  · rw [List.mem_singleton.mp he]
    exact a.holds_supply hget

theorem applyLiquidationSeizures_keeps {liquidator : Address} {seized : List SeizeEntry} :
    Keeps (InHand base spokeId others a)
      (applyLiquidationSeizures h timestamp liquidator a seized)
      fun a' s => InHand base spokeId others a' s ∧ a.SameBesides .supply a' := by
  refine .bind (Q := fun entries s => InHand base spokeId others a s ∧ ∀ e ∈ entries,
    a.Holds .supply e.action.hubAsset e.action.position.scaledAmount) ?_ fun entries =>
    .fact fun hold => .bind (applyWithdrawBatch_keeps hold) fun _ => .pure fun s hs => hs
  have hloop := Keeps.foldlM (l := seized) (f := seizureEntry (W := W) a)
    (P := fun entries _ s => InHand base spokeId others a s ∧ ∀ e ∈ entries,
      a.Holds .supply e.action.hubAsset e.action.position.scaledAmount)
    (fun _ _ _ _ => .fact fun hold => seizureEntry_keeps h hold) []
  exact hloop.pre fun s hs => ⟨hs, fun e he => by cases he⟩

/-! ## Seizures in the pool -/

/-- What a batch of seizures posts to the pool's totals. -/
def seizeBooks (entries : List PoolSeizeEntry) : Books :=
  (entries.map fun e =>
    atPool .supply e.hubAsset e.supplyDelta + atPool .borrow e.hubAsset e.debtDelta).sum

@[simp] theorem seizeBooks_nil : seizeBooks [] = 0 := rfl

theorem seizeBooks_append {entries entries' : List PoolSeizeEntry} :
    seizeBooks (entries ++ entries') = seizeBooks entries + seizeBooks entries' := by
  rw [seizeBooks, List.map_append, List.sum_append, seizeBooks, seizeBooks]

theorem seizeBooks_singleton {e : PoolSeizeEntry} :
    seizeBooks [e] =
      atPool .supply e.hubAsset e.supplyDelta + atPool .borrow e.hubAsset e.debtDelta :=
  List.sum_singleton

@[simp] theorem seizeBooks_some {entries : List PoolSeizeEntry} {id : Nat} {side : UsageSide}
    {market : HubAssetKey} : seizeBooks entries ⟨some id, side, market⟩ = 0 := by
  induction entries with
  | nil => rfl
  | cons e entries ih =>
    rw [← List.singleton_append, seizeBooks_append, Pi.add_apply, ih, seizeBooks_singleton,
      Pi.add_apply, atPool_some, atPool_some, add_zero, add_zero]

theorem seizeBatch_books {entries : List PoolSeizeEntry} {seen : List HubAssetKey}
    {pool pool' : PoolCtx W} {rs : List Unit}
    (hrun : Ops.runBatch PoolSeizeEntry.hubAsset false (Seize.leg timestamp) seen pool entries =
      .ok (pool', rs)) :
    poolBooks pool'.markets = poolBooks pool.markets + seizeBooks entries ∧
      pool'.decimals = pool.decimals := by
  induction entries generalizing pool seen rs with
  | nil =>
    obtain ⟨rfl, rfl⟩ := Ops.runBatch_nil hrun
    exact ⟨(add_zero _).symm, rfl⟩
  | cons e entries ih =>
    obtain ⟨pool1, r, rs1, h1, -, hrest, -⟩ := Ops.runBatch_cons hrun
    obtain ⟨hbooks, hdec⟩ := ih hrest
    obtain ⟨hm, -⟩ := Seize.leg_moved h1
    refine ⟨?_, hdec.trans hm.decimals⟩
    rw [hbooks, hm.books, ← List.singleton_append, seizeBooks_append, seizeBooks_singleton,
      add_assoc]

/-- The pool takes over what nobody has any more. -/
theorem poolSeizePositions_keeps {entries : List PoolSeizeEntry} :
    Keeps (Holding base spokeId (others - seizeBooks entries) a)
      (poolSeizePositions timestamp entries) fun _ => Holding base spokeId others a := by
  refine .poolCall fun s pool _ hs hrun => ?_
  obtain ⟨pool1, hseize, heq⟩ := Fallible.bind_ok hrun
  obtain ⟨⟨pool2, rs⟩, hbatch, hpool⟩ := Fallible.bind_ok hseize
  obtain rfl : pool2 = pool1 := Except.ok.inj hpool
  obtain rfl : pool2 = pool := congrArg Prod.fst (Except.ok.inj heq)
  obtain ⟨hbooks, hdec⟩ := seizeBatch_books hbatch
  have hmoved := hs.pool_moved hbooks (fun _ _ _ => seizeBooks_some) hdec
  rwa [sub_add_cancel] at hmoved

/-! ## Credits -/

/-- `r'` is `r` with `scaled` more supply shares of one market. -/
structure GainsShares (r : Account) (market : HubAssetKey) (scaled : Int) (r' : Account) : Prop where
  spokeId : r'.spokeId = r.spokeId
  books : r'.books = r.books + posting r.spokeId .supply market scaled
  positive : 0 ≤ scaled → r.Positive → r'.Positive
  besides : r.SameBesides .supply r'
  keys : ∀ k ∈ r'.keysOf .supply, k ∈ r.keysOf .supply ∨ scaled ≠ 0 ∧ k = market

theorem GainsShares.none {r : Account} {market : HubAssetKey} : GainsShares r market 0 r :=
  ⟨rfl, by rw [posting_zero, add_zero], fun _ hr => hr, .refl, fun _ hk => .inl hk⟩

theorem GainsShares.of_becomes {r r' : Account} {market : HubAssetKey} {scaled : Int}
    (hne : scaled ≠ 0)
    (hb : r.Becomes .supply market (r.shares .supply market + scaled) r') :
    GainsShares r market scaled r' := by
  refine ⟨hb.spokeId, ?_, fun h0 hr => hb.positive ?_ hr, hb.besides, fun k hk => ?_⟩
  · rw [hb.books, add_sub_cancel_left]
  · exact add_nonneg hr.shares_nonneg h0
  · rcases hb.keys .supply k hk with hk | ⟨-, rfl⟩
    · exact .inl hk
    · exact .inr ⟨hne, rfl⟩

/-- What the receiver gets, wherever the credit runs. -/
theorem creditSupplyShares_gains {r : Account} {market : HubAssetKey} {scaled : Int} :
    Spec (fun _ => True) (fun _ => True) (creditSupplyShares r market scaled : Ctrl W Account)
      (GainsShares r market scaled) := by
  refine .ite (fun hzero => .pure ?_) fun hne => .bind
    (Q := fun position => position.scaledAmount = r.shares .supply market) ?_
    fun position hscaled => .bind (.lift (fun _ => id) fun _ _ => trivial)
      fun total htotal => .pure ?_
  · rw [hzero]
    exact .none
  · split
    · rename_i position hget
      exact .pure (r.shares_of_supply hget).symm
    · exact .bind .any fun _ _ => .pure Account.scaled_getOrCreateSupplyPosition
  · obtain ⟨-, rfl⟩ := Ray.checkedAdd_ok_iff.mp htotal
    refine .of_becomes hne ?_
    rw [← hscaled]
    exact r.updateOrRemoveSupplyPosition_becomes market
      { position with scaledAmount := position.scaledAmount + scaled }

theorem creditSupplyShares_keeps {P : Invocation W → Prop} (h : ControllerHost W) (hP : Stable P)
    {r : Account} {market : HubAssetKey} {scaled : Int} :
    Keeps P (creditSupplyShares r market scaled)
      fun r' s => P s ∧ GainsShares r market scaled r' :=
  Triple.returning (Keeps.reads h 0 hP creditSupplyShares_reads) creditSupplyShares_gains

/-- Two accounts of one spoke in hand, while fees wait to be handed to the pool. -/
structure Crediting (base : System W) (spokeId : Nat) (others : Books) (a r : Account)
    (room : Finset HubAssetKey) (acc : CreditAcc) (s : Invocation W) : Prop where
  holding : Holding base spokeId (others + acc.receiver.books - seizeBooks acc.feeEntries)
    acc.account s
  positive : acc.receiver.Positive
  besides : a.SameBesides .supply acc.account
  keys : acc.account.keysOf .supply ⊆ a.keysOf .supply
  receiverSpoke : acc.receiver.spokeId = r.spokeId
  receiverBesides : r.SameBesides .supply acc.receiver
  receiverKeys : acc.receiver.keysOf .supply ⊆ room

section Credit

variable {r : Account} {room : Finset HubAssetKey} {acc : CreditAcc}

theorem crediting_stable : Stable (Crediting base spokeId others a r room acc) :=
  fun s s' hq hs => { hs with holding := holding_stable s s' hq hs.holding }

/-- **One credit.** The receiver gets its shares, the fee leaves the row, and the pool is to get
it. -/
theorem Crediting.step {s s' : Invocation W} {market : HubAssetKey} {scaled liquidator fee : Int}
    {account receiver : Account} {entries : List PoolSeizeEntry}
    (hs : Crediting base spokeId others a r room acc s)
    (hrows : ∀ spokeId side market, 0 ≤ others ⟨some spokeId, side, market⟩)
    (hspoke : acc.receiver.spokeId = acc.account.spokeId) (hliquidator : 0 ≤ liquidator)
    (h0 : 0 ≤ scaled)
    (hscaled : scaled = acc.account.shares .supply market - (liquidator + fee))
    (ha : acc.account.Becomes .supply market scaled account)
    (hmem : market ∈ acc.account.keysOf .supply)
    (hr : GainsShares acc.receiver market liquidator receiver)
    (hroom : liquidator ≠ 0 → market ∈ room)
    (hposted : s.Posted s' spokeId .supply market (-fee))
    (hfees : seizeBooks entries = seizeBooks acc.feeEntries + atPool .supply market (-fee)) :
    Crediting base spokeId others a r room ⟨account, receiver, entries⟩ s' := by
  have hpos := hr.positive hliquidator hs.positive
  refine ⟨⟨?_, ?_, ?_, ha.spokeId.trans hs.holding.spoke, ha.positive h0 hs.holding.positive,
    fun id side market' => ?_, ?_⟩, hpos, hs.besides.trans ha.besides, fun k hk => ?_,
    hr.spokeId.trans hs.receiverSpoke, hs.receiverBesides.trans hr.besides, fun k hk => ?_⟩
  · rw [hposted.system, hs.holding.store]
  · rw [hposted.system, hs.holding.nft]
  · rw [hposted.system, hs.holding.decimals]
  · have hrow := hrows id side market'
    have hnn : 0 ≤ receiver.books ⟨some id, side, market'⟩ := hpos.books_nonneg _
    rw [Pi.sub_apply, Pi.add_apply, seizeBooks_some, sub_zero]
    exact add_nonneg hrow hnn
  · have hpool : atPool .supply market (-fee) = -atPool .supply market fee := Pi.single_neg _ _
    have hrow : atSpoke spokeId .supply market (-fee) = -atSpoke spokeId .supply market fee :=
      Pi.single_neg _ _
    have hseized : posting spokeId .supply market (-(liquidator + fee)) =
        -posting spokeId .supply market liquidator -
          (atPool .supply market fee + atSpoke spokeId .supply market fee) := by
      rw [← zero_sub, posting_sub, posting_zero, zero_sub, posting_add, posting, posting]
      abel
    rw [hposted.recorded, hs.holding.books, hfees, hr.books, ha.books, hscaled, hspoke,
      hs.holding.spoke, sub_sub_cancel_left, hseized, hpool, hrow]
    abel
  · rcases ha.keys .supply k hk with hk | ⟨-, rfl⟩
    · exact hs.keys hk
    · exact hs.keys hmem
  · rcases hr.keys k hk with hk | ⟨hne, rfl⟩
    · exact hs.receiverKeys hk
    · exact hroom hne

theorem splitSeizedShares_nonneg {seized bonus fee liquidator : Int} {fees : Nat}
    (hsplit : splitSeizedShares seized bonus fees = .ok (fee, liquidator)) :
    0 ≤ fee ∧ 0 ≤ liquidator := by
  unfold splitSeizedShares at hsplit
  simp only [Fallible.bind_ok_iff, Fallible.pure_ok_iff, Prod.mk.injEq, Ray.checkedSub_ok_iff]
    at hsplit
  obtain ⟨-, -, _, -, -, -, _, ⟨-, hfee, hle, rfl⟩, -, -, -, -, rfl, rfl⟩ := hsplit
  exact ⟨hfee, sub_nonneg.mpr hle⟩

/-- What an entry credits goes to a market there is room for. -/
def Admits (held room : Finset HubAssetKey) (entry : SeizeEntry) : Prop :=
  ∀ fee liquidator, splitSeizedShares entry.scaledAmount entry.bonusScaled entry.liquidationFees =
    .ok (fee, liquidator) → liquidator ≠ 0 → entry.hubAsset ∈ held → entry.hubAsset ∈ room

theorem creditSeizure_keeps (h : ControllerHost W)
    (hrows : ∀ spokeId side market, 0 ≤ others ⟨some spokeId, side, market⟩) {entry : SeizeEntry}
    (hadmits : Admits (a.keysOf .supply) room entry) :
    Keeps (Crediting base spokeId others a r room acc) (creditSeizure acc entry)
      (Crediting base spokeId others a r room) := by
  refine .read h 0 crediting_stable enforceSpokeAssetFlags_reads fun _ => .result fun split hsplit =>
    .assert fun hspoke => .result fun rest hrest => .assert fun hfee => .unwrap fun position hget =>
    .result fun scaled hscaled => .bind (creditSupplyShares_keeps h crediting_stable) fun receiver =>
    .fact fun hr => ?_
  obtain ⟨fee, liquidator⟩ := split
  obtain ⟨hfee0, hliq0⟩ := splitSeizedShares_nonneg hsplit
  obtain ⟨-, -, -, hrest⟩ := Ray.checkedSub_ok_iff.mp hrest
  obtain ⟨-, -, hle, hscaled⟩ := Ray.checkedSub_ok_iff.mp hscaled
  dsimp only at hrest hfee hr
  have hshares := acc.account.shares_of_supply hget
  have hmem := (acc.account.holds_supply hget).1
  have ha := acc.account.updateOrRemoveSupplyPosition_becomes entry.hubAsset
    { position with scaledAmount := scaled }
  have h0 : 0 ≤ scaled := by omega
  have hsum : scaled = acc.account.shares .supply entry.hubAsset - (liquidator + fee) := by omega
  have hstep : ∀ {s s' : Invocation W} {entries : List PoolSeizeEntry},
      Crediting base spokeId others a r room acc s →
      s.Posted s' spokeId .supply entry.hubAsset (-fee) →
      seizeBooks entries = seizeBooks acc.feeEntries + atPool .supply entry.hubAsset (-fee) →
      Crediting base spokeId others a r room ⟨acc.account.updateOrRemoveSupplyPosition
        entry.hubAsset { position with scaledAmount := scaled }, receiver, entries⟩ s' :=
    fun hs hposted hfees => hs.step hrows hspoke hliq0 h0 hsum ha hmem hr
      (fun hne => hadmits fee liquidator hsplit hne (hs.keys hmem)) hposted hfees
  refine .ite (fun hpos => ?_) fun hzero => .pure fun s hs => ?_
  · refine .knowing (fun s hs => ha.spokeId.trans hs.holding.spoke) fun hid => ?_
    dsimp only
    rw [hid]
    refine .bind (Context.applySpokeExit_keeps (Q := fun _ => Crediting base spokeId others a r room
      ⟨acc.account.updateOrRemoveSupplyPosition entry.hubAsset
        { position with scaledAmount := scaled }, receiver,
        acc.feeEntries ++ [⟨.deposit, ⟨fee⟩, entry.hubAsset⟩]⟩) crediting_stable hpos.le ?_ ?_)
      fun _ => .pure fun s hs => hs
    · intro s hs
      have hrow := hrows spokeId .supply entry.hubAsset
      have hreceiver : 0 ≤ acc.receiver.books ⟨some spokeId, .supply, entry.hubAsset⟩ :=
        hs.positive.books_nonneg _
      have hheld : acc.account.shares .supply entry.hubAsset ≤
          acc.account.books ⟨some acc.account.spokeId, .supply, entry.hubAsset⟩ :=
        hs.holding.positive.shares_le_books
      rw [hshares, hs.holding.spoke] at hheld
      rw [hs.holding.books, Pi.add_apply, Pi.sub_apply, Pi.add_apply, seizeBooks_some]
      omega
    · intro s s' hs hposted
      refine hstep hs hposted ?_
      rw [seizeBooks_append, seizeBooks_singleton]
      simp [PoolSeizeEntry.supplyDelta, PoolSeizeEntry.debtDelta]
  · have hzero : fee = 0 := by
      dsimp only at hzero
      have hz : Ray.zero = 0 := rfl
      omega
    exact hstep hs ⟨rfl, by simp [hzero]⟩ (by simp [hzero])

/-- The two accounts after all credits. -/
structure CreditedTo (base : System W) (spokeId : Nat) (others : Books) (r : Account)
    (pair : Account × Account) (s : Invocation W) : Prop where
  inHand : InHand base spokeId (others + pair.2.books) pair.1 s
  sound : pair.2.Sound base.pool.decimals
  spoke : pair.2.spokeId = r.spokeId
  besides : r.SameBesides .supply pair.2

theorem applyLiquidationShareCredit_keeps (h : ControllerHost W)
    (hrows : ∀ spokeId side market, 0 ≤ others ⟨some spokeId, side, market⟩)
    {seized : List SeizeEntry} (hadmits : ∀ e ∈ seized, Admits (a.keysOf .supply) room e)
    (hr : r.Sound base.pool.decimals) (hroom : KeysFit base.pool.decimals .supply room)
    (hkeys : r.keysOf .supply ⊆ room) :
    Keeps (InHand base spokeId (others + r.books) a)
      (applyLiquidationShareCredit timestamp a r seized) (CreditedTo base spokeId others r) := by
  refine .knowing (fun s hs => hs.fits) fun hfits => ?_
  have hloop := Keeps.foldlM (l := seized) (f := creditSeizure (W := W))
    (P := fun acc _ => Crediting base spokeId others a r room acc)
    (fun _ e _ he => creditSeizure_keeps h hrows (hadmits e he)) ⟨a, r, []⟩
  refine .bind (hloop.pre fun s hs => ?_) fun acc => .start fun t ht => ?_
  · refine ⟨?_, hr.positive, .refl, Finset.Subset.refl _, rfl, .refl, hkeys⟩
    rw [seizeBooks_nil, sub_zero]
    exact hs.toHolding
  · have hend : ∀ {s}, Holding base spokeId (others + acc.receiver.books) acc.account s →
        CreditedTo base spokeId others r (acc.account, acc.receiver) s := fun hs =>
      ⟨⟨hs, ht.besides.fits hfits (hfits .supply) ht.keys⟩,
        ⟨ht.positive, ht.receiverBesides.fits hr.fits hroom ht.receiverKeys⟩, ht.receiverSpoke,
        ht.receiverBesides⟩
    refine .ite (fun _ => .bind (poolSeizePositions_keeps.pre ?_) fun _ => .pure fun s hs => hend hs)
      fun hnil => .pure ?_
    · rintro s rfl
      exact ht.holding
    · rintro s rfl
      have hholding := ht.holding
      rw [not_not.mp hnil, seizeBooks_nil, sub_zero] at hholding
      exact hend hholding

end Credit

/-! ## Gates of a credit -/

theorem creditedPayments_markets {seized : List SeizeEntry} {acc aggregated : List HubPayment}
    (hagg : seized.foldlM (fun aggregated entry => do
      if (← creditedShares entry) > Ray.zero then
        return aggregated ++ [(entry.hubAsset, entry.amount)]
      else
        return aggregated) acc = .ok aggregated) :
    marketsOf acc ⊆ marketsOf aggregated ∧
      ∀ e ∈ seized, ∀ liquidator, creditedShares e = .ok liquidator → 0 < liquidator →
        e.hubAsset ∈ marketsOf aggregated := by
  induction seized generalizing acc with
  | nil =>
    obtain rfl : acc = aggregated := Except.ok.inj hagg
    exact ⟨Finset.Subset.refl _, fun e he => by cases he⟩
  | cons e seized ih =>
    rw [List.foldlM_cons] at hagg
    obtain ⟨next, hnext, hagg⟩ := Fallible.bind_ok hagg
    obtain ⟨shares, hshares, hnext⟩ := Fallible.bind_ok hnext
    obtain ⟨hsub, hrest⟩ := ih hagg
    have hgrow : marketsOf acc ⊆ marketsOf next ∧ (0 < shares → e.hubAsset ∈ marketsOf next) := by
      split at hnext
      · obtain rfl := Fallible.pure_ok_iff.mp hnext
        refine ⟨?_, fun _ => mem_marketsOf (e := (e.hubAsset, e.amount)) (by simp)⟩
        unfold marketsOf
        rw [List.map_append, List.toFinset_append]
        exact Finset.subset_union_left
      · rename_i hle
        obtain rfl := Fallible.pure_ok_iff.mp hnext
        exact ⟨Finset.Subset.refl _, fun hpos => absurd hpos hle⟩
    refine ⟨hgrow.1.trans hsub, fun e' he' liquidator hliq hpos => ?_⟩
    rcases List.mem_cons.mp he' with rfl | he'
    · obtain rfl : shares = liquidator := Except.ok.inj (hshares.symm.trans hliq)
      exact hsub (hgrow.2 hpos)
    · exact hrest e' he' liquidator hliq hpos

theorem creditedPayments_admits {seized : List SeizeEntry} {aggregated : List HubPayment}
    (hagg : creditedPayments seized = .ok aggregated) {held room : Finset HubAssetKey}
    (hroom : marketsOf aggregated ⊆ room) : ∀ e ∈ seized, Admits held room e := by
  intro e he fee liquidator hsplit hne _
  have hliq : creditedShares e = .ok liquidator := Fallible.bind_ok_iff.mpr ⟨_, hsplit, rfl⟩
  have h0 := (splitSeizedShares_nonneg hsplit).2
  exact hroom ((creditedPayments_markets hagg).2 e he liquidator hliq (by omega))

/-- **Gates of a credit.** A new receiver gets markets of the liquidated account; an existing one
is held to its own room. -/
theorem requireCreditPositionLimit_keeps (h : ControllerHost W) (hbase : base.WellFormed)
    (hrows : ∀ spokeId side market, 0 ≤ others ⟨some spokeId, side, market⟩) {r : Account}
    (hr : r.Sound base.pool.decimals) (hspoke : r.spokeId = spokeId) {fresh : Bool}
    (hfresh : fresh = true → r.supplyPositions = .empty) {seized : List SeizeEntry} :
    Keeps (InHand base spokeId (others + r.books) a) (requireCreditPositionLimit r seized fresh)
      fun _ s => InHand base spokeId (others + r.books) a s ∧ ∃ room,
        KeysFit base.pool.decimals .supply room ∧ r.keysOf .supply ⊆ room ∧
        ∀ e ∈ seized, Admits (a.keysOf .supply) room e := by
  refine .result fun aggregated hagg => .ite (fun htrue => ?_) fun _ => ?_
  · refine (Keeps.reads h 0 inHand_stable Risk.requireWholeUnitIsolation_reads).post
      fun _ s hs => ?_
    refine ⟨hs, a.keysOf .supply, hs.fits .supply, ?_, fun e _ _ _ _ _ hmem => hmem⟩
    rw [Account.keysOf, hfresh htrue]
    exact Finset.empty_subset _
  · refine .knowing (fun s hs => And.intro hs.sound hs.spoke) fun hknown => ?_
    obtain ⟨ha, haspoke⟩ := hknown
    refine Keeps.pre ?_ fun s hs => hs.swap hrows hr hspoke
    refine .bind (Risk.validateBulkPositionLimits_keeps hbase) fun _ => .fact fun hlimit =>
      Risk.requireWholeUnitIsolation_keeps.post fun _ s hs => ?_
    exact ⟨hs.1.swap hrows ha haspoke, r.room .supply aggregated, ⟨hlimit, fun _ => hs.2⟩,
      Finset.subset_union_left, creditedPayments_admits hagg Finset.subset_union_right⟩

/-! ## The receiver -/

def idsOf (receiver : Option (Nat × Account)) : List Nat := (receiver.map Prod.fst).toList

def booksOf (receiver : Option (Nat × Account)) : Books := receiver.elim 0 fun r => r.2.books

/-- Who takes the seizures of account `id`: nobody, or another account of its spoke. -/
inductive Receives (id : Nat) (a : Account) (fresh : Bool) (s : Invocation W) :
    Option (Nat × Account) → Prop
  | transfer : Receives id a fresh s none
  | credit {rid : Nat} {r : Account} (loaded : Loaded rid r s) (ne : rid ≠ id)
      (spoke : r.spokeId = a.spokeId) (empty : fresh = true → r.supplyPositions = .empty) :
      Receives id a fresh s (some (rid, r))

theorem loadCreditReceiver_keeps {P : Invocation W → Prop} (hP : Stable P) {id requested : Nat} :
    Keeps P (loadCreditReceiver h id a requested)
      fun r s => (P s ∧ Loaded requested r s) ∧ requested ≠ id ∧ r.spokeId = a.spokeId :=
  .assert fun hne => .bind (Storage.getAccount_keeps hP) fun _ => .assert fun hspoke =>
    .assert fun _ => .pure fun _ hs => ⟨hs, hne, hspoke⟩

theorem resolveSeizeReceiver_keeps {start : System W} {liquidator : Address} {id : Nat}
    {seizeMode : SeizeMode} :
    Keeps (fun s => Balanced start [] 0 s ∧ Loaded id a s)
      (resolveSeizeReceiver h liquidator id a seizeMode)
      fun receiver s => (Balanced start [] 0 s ∧ Loaded id a s) ∧
        Receives id a (seizeMode = .credit 0) s receiver := by
  cases seizeMode with
  | transfer => exact .pure fun s hs => ⟨hs, .transfer⟩
  | credit requested =>
    refine .ite (fun _ => ?_) fun hne => ?_
    · refine .bind ((Account.createAccountWith_keeps start [(id, a)]).pre fun s hs =>
        ⟨hs.1, fun e he => ?_⟩) fun r => .pure fun s hs => ⟨⟨hs.balanced, ?_⟩, ?_⟩
      · rw [List.mem_singleton.mp he]
        exact hs.2
      · exact hs.knows (id, a) (List.mem_singleton.mpr rfl)
      · exact .credit hs.loaded (hs.ne (id, a) (List.mem_singleton.mpr rfl)).symm hs.spoke
          fun _ => hs.supply
    · refine .bind (loadCreditReceiver_keeps (balanced_stable.and loaded_stable)) fun r =>
        .fact fun ⟨hne', hspoke⟩ => .read h 0
        ((balanced_stable.and loaded_stable).and loaded_stable) Account.requireOwnerOrDelegate_reads
        fun _ => .pure fun s hs => ⟨hs.1, .credit hs.2 hne' hspoke fun hfresh => ?_⟩
      simp [hne] at hfresh

/-- The receiver's shares leave the total over stored accounts. -/
theorem Receives.balanced {start : System W} {id : Nat} {fresh : Bool}
    {receiver : Option (Nat × Account)} {s : Invocation W} (hr : Receives id a fresh s receiver)
    (hs : Balanced start [] 0 s) :
    Balanced start (idsOf receiver) (booksOf receiver) s ∧ id ∉ idsOf receiver ∧
      0 ≤ booksOf receiver := by
  cases hr with
  | transfer => exact ⟨hs, List.not_mem_nil, le_rfl⟩
  | credit hloaded hne _ _ =>
    rename_i rid r
    obtain ⟨m, hm, hspoke⟩ := hloaded.bound
    refine ⟨⟨hs.wellFormed, hs.evolves, hs.persisted, ?_⟩, ?_,
      (hs.sound hloaded).positive.books_nonneg⟩
    · rw [hs.books, ControllerStore.booksBesides_take hm List.not_mem_nil, hloaded.supply,
        hloaded.debt, hspoke, add_zero]
      rfl
    · exact fun hmem => hne (List.mem_singleton.mp hmem).symm

/-- The receiver as the credits left it. -/
inductive Received (decimals : HubAssetKey → Option Nat) :
    Option (Nat × Account) → Option (Nat × Account) → Prop
  | transfer : Received decimals none none
  | credit {rid : Nat} {r r' : Account} (sound : r'.Sound decimals) (spoke : r'.spokeId = r.spokeId)
      (besides : r.SameBesides .supply r') : Received decimals (some (rid, r)) (some (rid, r'))

theorem takeSeizures_keeps {liquidator : Address} {receiver : Option (Nat × Account)}
    {fresh : Bool} {seized : List SeizeEntry} (hbase : base.WellFormed)
    (hrows : ∀ spokeId side market, 0 ≤ others ⟨some spokeId, side, market⟩)
    (hr : ∀ e ∈ receiver, e.2.Sound base.pool.decimals ∧ e.2.spokeId = spokeId ∧
      (fresh = true → e.2.supplyPositions = .empty)) :
    Keeps (InHand base spokeId (others + booksOf receiver) a)
      (takeSeizures h timestamp liquidator a receiver fresh seized)
      fun r s => InHand base spokeId (others + booksOf r.2) r.1 s ∧
        Received base.pool.decimals receiver r.2 := by
  cases receiver with
  | none =>
    exact .bind applyLiquidationSeizures_keeps fun _ => .pure fun s hs => ⟨hs.1, .transfer⟩
  | some e =>
    obtain ⟨hsound, hspoke, hempty⟩ := hr e rfl
    refine .bind (requireCreditPositionLimit_keeps h hbase hrows hsound hspoke hempty) fun _ =>
      .fact fun ⟨room, hroom, hkeys, hadmits⟩ => ?_
    exact .bind (applyLiquidationShareCredit_keeps h hrows hadmits hsound hroom hkeys) fun pair =>
      .pure fun s hs => ⟨hs.inHand, .credit hs.sound hs.spoke hs.besides⟩

/-! ## Writing both accounts back -/

/-- The receiver is stored as it was loaded. -/
def Waiting (receiver : Option (Nat × Account)) (decimals : HubAssetKey → Option Nat)
    (s : Invocation W) : Prop :=
  ∀ e ∈ receiver, Loaded e.1 e.2 s ∧ s.pool.decimals = decimals

theorem waiting_stable {receiver : Option (Nat × Account)} {decimals : HubAssetKey → Option Nat} :
    Stable (Waiting (W := W) receiver decimals) :=
  fun s s' hq hs e he => ⟨loaded_stable s s' hq (hs e he).1, hq.decimals.trans (hs e he).2⟩

/-- The liquidated account first. -/
theorem finalizeLiquidated_keeps {start : System W} {id : Nat}
    {receiver receiver' : Option (Nat × Account)}
    (ho : Opened start base (idsOf receiver) id spokeId)
    (hwaiting : ∀ s : Invocation W, s.store = base.store → s.pool.decimals = base.pool.decimals →
      Waiting receiver base.pool.decimals s) (hne : ∀ e ∈ receiver, e.1 ≠ id) :
    Keeps (InHand base spokeId
        (base.store.booksBesides (id :: idsOf receiver) + booksOf receiver') a)
      (finalizePositionFlow h id a .both false)
      fun _ s => (Balanced start (idsOf receiver) (booksOf receiver') s ∧
        Waiting receiver base.pool.decimals s) ∧ Loaded id a s := by
  have hwrite : Keeps (InHand base spokeId
      (base.store.booksBesides (id :: idsOf receiver) + booksOf receiver') a)
      (finalizePositionFlow h id a .both false)
      fun _ s => Balanced start (idsOf receiver) (booksOf receiver') s ∧
        (false = false → Loaded id a s) := writeBack_keeps ho saves_both
  cases receiver with
  | none => exact hwrite.post fun _ s hs => ⟨⟨hs.1, nofun⟩, hs.2 rfl⟩
  | some e =>
    refine ((hwrite.and (finalizePositionFlow_others (b := e.2) (hne e rfl))).pre fun s hs =>
      ⟨hs, hwaiting s hs.store hs.decimals e rfl⟩).post fun _ s hs => ⟨⟨hs.1.1, ?_⟩, hs.1.2 rfl⟩
    rintro _ ⟨⟩
    exact hs.2

/-- Then the receiver. -/
theorem finalizeReceiver_keeps {start : System W} {decimals : HubAssetKey → Option Nat} {id : Nat}
    {receiver receiver' : Option (Nat × Account)} {seized : List SeizeEntry}
    (hr : Received decimals receiver receiver') (hne : ∀ e ∈ receiver, e.1 ≠ id) :
    Keeps (fun s => (Balanced start (idsOf receiver) (booksOf receiver') s ∧
        Waiting receiver decimals s) ∧ Loaded id a s)
      (finalizeReceiver h receiver' seized)
      fun _ s => Balanced start [] 0 s ∧ Loaded id a s := by
  cases hr with
  | transfer => exact .pure fun s hs => ⟨hs.1.1, hs.2⟩
  | credit hsound hspoke hbesides =>
    rename_i rid r r'
    refine .read h 0 ((balanced_stable.and waiting_stable).and loaded_stable)
      recordShareCreditUpdates_reads fun _ => .start fun t ht => ?_
    obtain ⟨⟨hbal, hwaiting⟩, ha⟩ := ht
    obtain ⟨hloaded, hdec⟩ := hwaiting (rid, r) rfl
    have ho : Opened start t.toSystem [] rid r'.spokeId :=
      ⟨hbal.wellFormed, hbal.evolves, hspoke ▸ hloaded.bound, List.not_mem_nil⟩
    have hholding : ∀ s, s = t →
        Holding t.toSystem r'.spokeId (t.store.booksBesides [rid] + 0) r' s ∧
          Loaded id a s ∧ s.pool.decimals = decimals := by
      rintro s rfl
      rw [add_zero]
      exact ⟨⟨rfl, rfl, rfl, rfl, hsound.positive,
        fun id side market => hbal.wellFormed.booksBesides_nonneg [rid] _, hbal.books⟩, ha, hdec⟩
    have hwrite : Keeps (Holding t.toSystem r'.spokeId (t.store.booksBesides [rid] + 0) r')
        (finalizePositionFlow h rid r' .supply false)
        fun _ s => Balanced start [] 0 s ∧ (false = false → Loaded rid r' s) :=
      finalizePositionFlow_keeps ho (hdec.symm ▸ hsound) (saves_supply hloaded hbesides) rfl nofun
    exact Keeps.post (Keeps.pre (hwrite.and
      (finalizePositionFlow_others (hne (rid, r) rfl).symm)) hholding)
      fun _ s hs => ⟨hs.1.1, hs.2.1⟩

/-! ## Bad debt -/

/-- The shares of listed positions of one side. -/
def listBooks {V : Type} (scaled : V → Int) (spokeId : Nat) (side : UsageSide)
    (l : List (HubAssetKey × V)) : Books :=
  (l.map fun e => posting spokeId side e.1 (scaled e.2)).sum

theorem listBooks_cons {V : Type} {scaled : V → Int} {side : UsageSide} {e : HubAssetKey × V}
    {l : List (HubAssetKey × V)} :
    listBooks scaled spokeId side (e :: l) =
      posting spokeId side e.1 (scaled e.2) + listBooks scaled spokeId side l :=
  List.sum_cons

theorem listBooks_nonneg {V : Type} {scaled : V → Int} {side : UsageSide}
    {l : List (HubAssetKey × V)} (hpos : ∀ e ∈ l, 0 ≤ scaled e.2) :
    0 ≤ listBooks scaled spokeId side l := by
  refine List.sum_nonneg fun b hb => ?_
  obtain ⟨e, he, rfl⟩ := List.mem_map.mp hb
  exact posting_nonneg (hpos e he)

/-- **Releasing a side.** Every position leaves the rows, and the pool is to take it. -/
theorem releaseSide_keeps {V : Type} {scaled : V → Int} {side : UsageSide}
    {l : List (HubAssetKey × V)} (make : HubAssetKey × V → PoolSeizeEntry)
    (init : List PoolSeizeEntry)
    (hmake : ∀ e, seizeBooks [make e] = atPool side e.1 (-scaled e.2))
    (hpos : ∀ e ∈ l, 0 ≤ scaled e.2)
    (hrows : ∀ spokeId side market, 0 ≤ others ⟨some spokeId, side, market⟩) :
    Keeps (Holding base spokeId (others + listBooks scaled spokeId side l) a)
      (l.foldlM (fun entries e => do
        Context.applySpokeExit spokeId side e.1 (scaled e.2)
        return entries ++ [make e]) init : Ctrl W (List PoolSeizeEntry))
      fun entries s => Holding base spokeId (others - seizeBooks (l.map make)) a s ∧
        entries = init ++ l.map make := by
  have hloop := Keeps.foldlM (l := l) (f := fun entries e => (do
        Context.applySpokeExit spokeId side e.1 (scaled e.2)
        return entries ++ [make e] : Ctrl W (List PoolSeizeEntry)))
    (P := fun entries rest s => Holding base spokeId (others + listBooks scaled spokeId side rest -
        (seizeBooks (l.map make) - seizeBooks (rest.map make))) a s ∧
      (entries ++ rest.map make = init ++ l.map make ∧ ∀ e ∈ rest, 0 ≤ scaled e.2)) ?_ init
  · refine (hloop.pre fun s hs => ⟨?_, rfl, hpos⟩).post fun entries s hs => ⟨?_, ?_⟩
    · rw [sub_self, sub_zero]
      exact hs
    · have hzero : listBooks scaled spokeId side ([] : List (HubAssetKey × V)) = 0 := rfl
      have hend := hs.1
      rwa [hzero, add_zero, List.map_nil, seizeBooks_nil, sub_zero] at hend
    · have hend := hs.2.1
      rwa [List.map_nil, List.append_nil] at hend
  · rintro entries e rest -
    refine .fact fun ⟨hentries, hrest⟩ => ?_
    have h0 := hrest e List.mem_cons_self
    have htail := fun e' he' => hrest e' (List.mem_cons_of_mem _ he')
    refine .bind (Context.applySpokeExit_keeps (Q := fun _ s => Holding base spokeId
      (others + listBooks scaled spokeId side rest -
        (seizeBooks (l.map make) - seizeBooks (rest.map make))) a s) holding_stable h0 ?_ ?_) fun _ =>
      .pure fun s hs => ⟨hs, ?_, htail⟩
    · intro s hs
      have hrow := hrows spokeId side e.1
      have hlist : 0 ≤ listBooks scaled spokeId side rest ⟨some spokeId, side, e.1⟩ :=
        listBooks_nonneg htail _
      have hacc : 0 ≤ a.books ⟨some spokeId, side, e.1⟩ := hs.positive.books_nonneg _
      rw [hs.books, listBooks_cons]
      simp only [Pi.add_apply, Pi.sub_apply, seizeBooks_some, posting_self]
      omega
    · intro s s' hs hposted
      refine ⟨?_, ?_, ?_, hs.spoke, hs.positive, fun id side' market => ?_, ?_⟩
      · rw [hposted.system, hs.store]
      · rw [hposted.system, hs.nft]
      · rw [hposted.system, hs.decimals]
      · have hrow := hrows id side' market
        have hlist : 0 ≤ listBooks scaled spokeId side rest ⟨some id, side', market⟩ :=
          listBooks_nonneg htail _
        simp only [Pi.add_apply, Pi.sub_apply, seizeBooks_some]
        omega
      · have hpool : atPool side e.1 (-scaled e.2) = -atPool side e.1 (scaled e.2) :=
          Pi.single_neg _ _
        have hspoke : atSpoke spokeId side e.1 (-scaled e.2) =
            -atSpoke spokeId side e.1 (scaled e.2) := Pi.single_neg _ _
        rw [hposted.recorded, hs.books, listBooks_cons, List.map_cons, ← List.singleton_append,
          seizeBooks_append, hmake, posting, hpool, hspoke]
        abel
    · rw [← hentries, List.map_cons, List.append_assoc, List.singleton_append]

/-- The account with nothing left in it. -/
def cleared (a : Account) : Account :=
  { a with supplyPositions := .empty, borrowPositions := .empty }

theorem cleared_books : (cleared a).books = 0 := add_zero 0

/-- Positions about to be released count among the others. -/
theorem inHand_cleared {s : Invocation W} (hs : InHand base spokeId others a s) :
    Holding base spokeId
      (others + listBooks DebtPosition.scaledAmount spokeId .borrow a.borrowPositions.entries +
        listBooks AccountPosition.scaledAmount spokeId .supply a.supplyPositions.entries)
      (cleared a) s := by
  have hbooks : a.books =
      listBooks AccountPosition.scaledAmount spokeId .supply a.supplyPositions.entries +
        listBooks DebtPosition.scaledAmount spokeId .borrow a.borrowPositions.entries := by
    rw [← hs.spoke]
    rfl
  have hsum : others + listBooks DebtPosition.scaledAmount spokeId .borrow
        a.borrowPositions.entries +
        listBooks AccountPosition.scaledAmount spokeId .supply a.supplyPositions.entries =
      others + a.books := by
    rw [hbooks]
    abel
  rw [hsum]
  refine ⟨hs.store, hs.nft, hs.decimals, hs.spoke, ⟨nofun, nofun⟩, fun id side market =>
    add_nonneg (hs.rows id side market) (hs.positive.books_nonneg _), ?_⟩
  rw [hs.books, cleared_books, add_zero]

/-- **Write-off.** The rows and the pool lose what the account had, and the account goes. -/
theorem executeBadDebtCleanup_keeps {start : System W} {id : Nat} :
    Keeps (fun s => Balanced start [] 0 s ∧ Loaded id a s)
      (executeBadDebtCleanup h timestamp id a) fun _ => Balanced start [] 0 := by
  refine .openedAlone fun t ho _ => .knowing (fun s hs => And.intro hs.positive hs.rows) ?_
  rintro ⟨hpos, hrows⟩
  refine Keeps.pre ?_ fun s hs => inHand_cleared hs
  have hdebt : ∀ e ∈ a.borrowPositions.entries, 0 ≤ e.2.scaledAmount :=
    fun e he => (hpos.debt (SortedMap.mem_entries.mp he)).le
  refine .bind (releaseSide_keeps (fun e => ⟨.deposit, ⟨e.2.scaledAmount⟩, e.1⟩) [] (fun e => ?_)
    (fun e he => (hpos.supply (SortedMap.mem_entries.mp he)).le) ?_) fun supplies =>
    .fact fun hsupplies => ?_
  · rw [seizeBooks_singleton]
    simp [PoolSeizeEntry.supplyDelta, PoolSeizeEntry.debtDelta]
  · exact fun id side market => add_nonneg (hrows id side market) (listBooks_nonneg hdebt _)
  rw [add_sub_right_comm]
  refine .bind (releaseSide_keeps (fun e => ⟨.borrow, ⟨e.2.scaledAmount⟩, e.1⟩) supplies
    (fun e => ?_) hdebt ?_) fun entries => .fact fun hentries => ?_
  · rw [seizeBooks_singleton]
    simp [PoolSeizeEntry.supplyDelta, PoolSeizeEntry.debtDelta]
  · intro id side market
    rw [Pi.sub_apply, seizeBooks_some, sub_zero]
    exact hrows id side market
  rw [List.nil_append] at hsupplies
  rw [sub_sub, ← hsupplies, ← seizeBooks_append, ← hentries]
  refine .bind poolSeizePositions_keeps fun _ => .bind Context.persistSpokeUsage_keeps fun _ =>
    Account.removeAccountAndBurnNft_keeps.pre fun s hs => hs.balanced ho ?_
  rw [cleared_books, add_zero]

theorem checkBadDebtAfterLiquidation_keeps {start : System W} {id : Nat}
    {totals : Risk.AccountRiskTotals} :
    Keeps (fun s => Balanced start [] 0 s ∧ Loaded id a s)
      (checkBadDebtAfterLiquidation h timestamp id a totals) fun _ => Balanced start [] 0 :=
  .ite (fun _ => Account.cleanupAccountIfEmpty_keeps List.not_mem_nil rfl rfl) fun _ =>
    .ite (fun _ => executeBadDebtCleanup_keeps) fun _ => .pure fun _ hs => hs.1

theorem socializeBadDebt_keeps {start : System W} {id : Nat} {gate : BadDebtGate} :
    Keeps (Balanced start [] 0) (socializeBadDebt h timestamp id gate)
      fun _ => Balanced start [] 0 :=
  .bind (Storage.getAccount_keeps balanced_stable) fun _ => .assert fun _ =>
    .read h timestamp (balanced_stable.and loaded_stable) Risk.calculateAccountRiskTotals_reads
      fun _ => .assert fun _ => executeBadDebtCleanup_keeps

theorem processCleanBadDebt_keeps {start : System W} {id : Nat} :
    Keeps (Balanced start [] 0) (processCleanBadDebt h timestamp id)
      fun _ => Balanced start [] 0 :=
  .read h timestamp balanced_stable Risk.requireNotFlashLoaning_reads fun _ => socializeBadDebt_keeps

theorem processForceSocializeBadDebt_keeps {start : System W} {id : Nat} :
    Keeps (Balanced start [] 0) (processForceSocializeBadDebt h timestamp id)
      fun _ => Balanced start [] 0 :=
  .read h timestamp balanced_stable Risk.requireNotFlashLoaning_reads fun _ => socializeBadDebt_keeps

/-! ## Whole liquidations -/

theorem Receives.sound {start : System W} {id : Nat} {fresh : Bool}
    {receiver : Option (Nat × Account)} {t : Invocation W} (hr : Receives id a fresh t receiver)
    (hs : Balanced start [] 0 t) :
    ∀ e ∈ receiver, e.2.Sound t.pool.decimals ∧ e.2.spokeId = a.spokeId ∧
      (fresh = true → e.2.supplyPositions = .empty) := by
  cases hr with
  | transfer => exact nofun
  | credit hloaded _ hspoke hempty =>
    rintro _ ⟨⟩
    exact ⟨hs.sound hloaded, hspoke, hempty⟩

theorem Receives.ne {id : Nat} {fresh : Bool} {receiver : Option (Nat × Account)}
    {t : Invocation W} (hr : Receives id a fresh t receiver) : ∀ e ∈ receiver, e.1 ≠ id := by
  cases hr with
  | transfer => exact nofun
  | credit _ hne _ _ =>
    rintro _ ⟨⟩
    exact hne

theorem Receives.waiting {id : Nat} {fresh : Bool} {receiver : Option (Nat × Account)}
    {t s : Invocation W} (hr : Receives id a fresh t receiver) (hstore : s.store = t.store)
    (hdec : s.pool.decimals = t.pool.decimals) : Waiting receiver t.pool.decimals s := by
  cases hr with
  | transfer => exact nofun
  | credit hloaded _ _ _ =>
    rintro _ ⟨⟩
    refine ⟨⟨?_, ?_, ?_⟩, hdec⟩
    · rw [hstore]
      exact hloaded.bound
    · rw [hstore]
      exact hloaded.supply
    · rw [hstore]
      exact hloaded.debt

/-- **Liquidation.** With payouts or with credits, the books balance. -/
theorem processLiquidation_keeps {start : System W} {liquidator : Address} {id : Nat}
    {debtPayments : List HubPayment} {seizeMode : SeizeMode} :
    Keeps (Balanced start [] 0)
      (processLiquidation h timestamp liquidator id debtPayments seizeMode)
      fun _ => Balanced start [] 0 := by
  refine .read h timestamp balanced_stable Risk.requireNotFlashLoaning_reads fun _ =>
    .bind (Storage.getAccount_keeps balanced_stable) fun a => .result fun _ _ =>
    .bind resolveSeizeReceiver_keeps fun receiver => .start fun t ht => ?_
  obtain ⟨⟨hbal, ha⟩, hr⟩ := ht
  obtain ⟨hbal', hid, hnonneg⟩ := hr.balanced hbal
  have ho := hbal'.opened ha hid
  have hin : ∀ s, s = t → InHand t.toSystem a.spokeId
      (t.store.booksBesides (id :: idsOf receiver) + booksOf receiver) a s := by
    rintro s rfl
    exact hbal'.inHand ha hid fun _ _ _ => hnonneg _
  refine Keeps.pre (.read h timestamp inHand_stable buildLiquidationPlan_reads fun plan =>
    .result fun offered _ => .result fun _ _ => .bind applyLiquidationRepayments_keeps fun repaid =>
    .fact fun _ => .result fun _ _ => .result fun seized _ =>
    .bind (takeSeizures_keeps ho.wellFormed
      (fun _ _ _ => hbal.wellFormed.booksBesides_nonneg _ _) (hr.sound hbal)) fun taken =>
    .fact fun htaken => .read h timestamp inHand_stable Risk.calculateAccountRiskTotals_reads
      fun totals => ?_) hin
  exact .bind (finalizeLiquidated_keeps ho (fun s => hr.waiting) hr.ne) fun _ =>
    .bind (finalizeReceiver_keeps htaken hr.ne) fun _ =>
    .bind checkBadDebtAfterLiquidation_keeps fun _ => .pure fun _ hs => hs

end Liquidation

end Lending
