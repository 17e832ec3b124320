import LendingXlm.Controller.Delegates
import LendingXlm.Controller.Files
import LendingXlm.Controller.Liquidation.Credit

/-!
# Whose account it is

Anyone may call anything on any account. What a caller who is neither the owner nor a delegate can
bring about is to the account's good: shares are added, debt is repaid, parameters are restamped.
The one exception is liquidation, and it takes an account that owes something.

* **In its favour**: deposits, repayments, credits and threshold updates (`Account.Moves`);
* **Authority**: the calls that take from an account find an authorised caller (`authorised`);
* **Calls and runs**: `ControllerCall.body_spares`, `account_sovereignty`.
-/

namespace Lending

open Transaction Ctrl Invocation

variable {W : Type} {h : ControllerHost W} {timestamp : Nat}

/-! ## In the account's favour -/

/-- The shares of one side moved so, market by market; those of the other side are the same. -/
structure Account.Moves (side : UsageSide) (moves : Int → Int → Prop) (a b : Account) : Prop where
  besides : a.SameBesides side b
  shares : ∀ market, moves (a.shares side market) (b.shares side market)

namespace Positions

variable {P : Invocation W → Prop} {st : ControllerStore} {nft : PositionNft}
  {base pool : PoolCtx W} {a : Account} {side : UsageSide}

/-- A loop that sets markets to shares the account's own have moved to. -/
theorem forEachLeg_moves {E R : Type} {entries : List E} {results : List R}
    {f : Account → E × R → Ctrl W Account} (moves : Int → Int → Prop)
    (market : E × R → HubAssetKey) (new : E × R → Int) (hrefl : ∀ x, moves x x)
    (hmoves : ∀ e ∈ entries.zip results, moves (a.shares side (market e)) (new e))
    (hf : ∀ b e, e ∈ entries.zip results →
      Within P (f b e) (b.Becomes side (market e) (new e))) :
    Within P (forEachLeg entries results f a) (a.Moves side moves) := by
  refine .assert fun _ => .loop (I := a.Moves side moves) (fun b e he hb => ?_) a
    ⟨.refl, fun _ => hrefl _⟩
  refine Spec.post (hf b e he) fun b' hb' => ⟨hb.besides.trans hb'.besides, fun market' => ?_⟩
  by_cases heq : market' = market e
  · rw [heq, hb'.shares_self]
    exact hmoves e he
  · rw [hb'.shares_ne side market' heq]
    exact hb.shares market'

end Positions

/-- A refresh changes no shares. -/
theorem Risk.refreshSupplyRiskParams_scaled {P : Invocation W → Prop} {a : Account}
    {market : HubAssetKey} {p : AccountPosition} {config : AssetConfig} {scope : RiskRefreshScope}
    (hP : ∀ s s', Reads h timestamp s s' → P s → P s') :
    Within P (refreshSupplyRiskParams h timestamp a market p config scope)
      fun p' => p'.scaledAmount = p.scaledAmount := by
  refine .ite (fun _ => .bind (Within.along ?_ hP) fun refused _ =>
    .ite (fun _ => .pure rfl) fun _ => .pure rfl) fun _ => .pure rfl
  exact .ite (.bind clearsMinHf_reads fun _ => .pure) .pure

/-- A repayment burns no more than is owed. -/
theorem Repay.apply_shrinks {s s' : PoolCtx W} {payer : Address} {action : PoolAction}
    {r : PoolPositionMutation}
    (hleg : Repay.apply h.toPoolHost timestamp payer s action = .ok (s', r)) :
    r.position.scaledAmount ≤ action.position.scaledAmount := by
  unfold Repay.apply at hleg
  simp only [Fallible.bind_ok_iff, Fallible.pure_ok_iff, Prod.mk.injEq] at hleg
  obtain ⟨o, hacc, world, -, -, rfl⟩ := hleg
  obtain ⟨c, burned, -, -, -, -, -, hburned, -, -, -, -, hmut⟩ := Repay.accounting_ok hacc
  rw [hmut]
  exact sub_le_self _ hburned

namespace Positions

variable {st : ControllerStore} {nft : PositionNft} {base pool : PoolCtx W} {a : Account}

theorem mergeSupplyLeg_becomes {action : PoolAction} {result : PoolPositionMutation}
    (hcur : pool.CurrentIndex timestamp action.hubAsset result.marketIndex) :
    Within (WorkingOn h timestamp st nft base pool) (mergeSupplyLeg h timestamp a action result)
      (a.Becomes .supply action.hubAsset result.position.scaledAmount) := by
  refine .idleOn Context.requireSpokeAsset_reads.idles fun _ =>
    .bind (Context.putMarketIndex_within hcur) fun _ _ =>
    .bind (Risk.refreshSupplyRiskParams_scaled fun _ _ hr hs => hr.idles.workingOn hs)
      fun position hposition => .idleOn applyLegUsage_idles fun _ => .pure ?_
  have hscaled : position.scaledAmount = result.position.scaledAmount := hposition
  exact hscaled ▸ a.updateOrRemoveSupplyPosition_becomes action.hubAsset position

/-- **Deposits** only add shares. -/
theorem processDeposit_raises {caller : Address} {aggregated : List HubPayment} :
    Within (Working h timestamp st nft base) (processDeposit h timestamp caller a aggregated)
      (a.Moves .supply (· ≤ ·)) :=
  processDeposit_merges fun _ _ _ hdeposited => forEachLeg_moves (· ≤ ·) (fun e => e.1.hubAsset)
    (fun e => e.2.position.scaledAmount) le_refl (fun e he => (hdeposited.grows e he).2)
    fun _ e he => mergeSupplyLeg_becomes (hdeposited.current e he)

/-- **Repayments** only take debt away. -/
theorem settleRepay_lowers {payer : Address} {aggregated : List HubPayment} :
    Within (Working h timestamp st nft base) (settleRepay h timestamp a payer aggregated)
      (a.Moves .borrow (· ≥ ·)) := by
  refine .bind (.loop (I := fun actions : List PoolAction => ∀ e ∈ actions,
      e.position.scaledAmount = a.shares .borrow e.hubAsset)
      (fun actions payment _ hactions => ?_) [] fun e he => absurd he List.not_mem_nil)
    fun actions hactions => .bind (Q := fun r => a.Moves .borrow (· ≥ ·) r.1)
      (Ctrl.poolCall_within fun {pool pool' results} hrun hcall => ?_) fun _ hr => .pure hr
  · refine .idle enforceSpokeAssetFlags_reads.idles fun _ => .unwrap fun position hget =>
      .idle Payments.transferAmountMeasured_outward.idles fun _ => .pure fun e he => ?_
    rcases List.mem_append.mp he with he | he
    · exact hactions e he
    · rw [List.mem_singleton.mp he]
      exact (Account.shares_of_debt hget).symm
  · obtain ⟨hcarries, hcur⟩ := Ops.runBatch_ranAt (k := PoolAction.hubAsset) (fun hleg => by
      obtain ⟨overpayment, hm, -⟩ := Repay.apply_moved hleg
      exact ⟨Repay.apply_ranAt hleg, hm.step⟩) hrun hcall
    have hshrinks := Ops.runBatch_results (R := fun (action : PoolAction) r =>
        r.position.scaledAmount ≤ action.position.scaledAmount) (fun _ hleg => by
      obtain ⟨overpayment, hm, -⟩ := Repay.apply_moved hleg
      exact ⟨Repay.apply_shrinks hleg, hm.step⟩) hrun hcall
    refine ⟨hcarries, .bind (forEachLeg_moves (· ≥ ·) (fun e => e.1.hubAsset)
      (fun e => e.2.position.scaledAmount) le_refl (fun e he => ?_) fun b e he => ?_)
      fun _ hb => .pure hb⟩
    · rw [← hactions e.1 (List.of_mem_zip he).1]
      exact hshrinks e he
    · refine mergeDebtLeg_within ?_
      exact hcur e he

end Positions

namespace Liquidation

variable {P : Invocation W → Prop} (hP : ∀ s s', Idles h timestamp s s' → P s → P s')

include hP

/-- **Credits** only add shares. -/
theorem creditSupplyShares_raises {r : Account} {market : HubAssetKey} {scaled : Int}
    (h0 : 0 ≤ scaled) :
    Within P (creditSupplyShares r market scaled : Ctrl W Account) (r.Moves .supply (· ≤ ·)) := by
  refine Spec.post ((Within.along creditSupplyShares_reads.idles hP).returning
    creditSupplyShares_gains) fun r' hgains => ⟨hgains.besides, fun market' => ?_⟩
  rw [hgains.shares]
  split <;> omega

theorem creditSeizure_raises {r : Account} {acc : CreditAcc} {entry : SeizeEntry}
    (hacc : r.Moves .supply (· ≤ ·) acc.receiver) :
    Within P (creditSeizure acc entry : Ctrl W CreditAcc)
      fun acc' => r.Moves .supply (· ≤ ·) acc'.receiver := by
  refine .bind (Within.along Positions.enforceSpokeAssetFlags_reads.idles hP) fun _ _ =>
    .result fun split hsplit => .assert fun _ => .result fun _ _ => .assert fun _ =>
    .unwrap fun _ _ => .result fun _ _ => .bind (creditSupplyShares_raises hP
      (splitSeizedShares_nonneg hsplit).2) fun receiver hreceiver => ?_
  have hmoves : r.Moves .supply (· ≤ ·) receiver :=
    ⟨hacc.besides.trans hreceiver.besides,
      fun market => (hacc.shares market).trans (hreceiver.shares market)⟩
  exact .ite (fun _ => .bind (Within.along Context.applySpokeExit_idles hP) fun _ _ =>
    .pure hmoves) fun _ => .pure hmoves

end Liquidation

namespace Risk

variable {id target : Nat} {base : System W} {scope : RiskRefreshScope}

theorem syncThresholdOf_moves {P : Invocation W → Prop}
    (hP : ∀ s s', Reads h timestamp s s' → P s → P s') {a : Account} {acc : Account × Bool}
    {market : HubAssetKey} (hacc : a.Moves .supply (· = ·) acc.1) :
    Within P (syncThresholdOf h timestamp scope acc market)
      fun acc' => a.Moves .supply (· = ·) acc'.1 := by
  refine .bind (Within.along Context.cachedSpokeAsset_reads hP) fun config _ => ?_
  cases config with
  | none => exact .pure hacc
  | some config =>
    refine .unwrap fun position hget => .bind (refreshSupplyRiskParams_scaled hP)
      fun updated hupdated => .ite (fun _ => .pure hacc) fun _ =>
      .bind (Within.along Context.cachedMarketIndex_reads hP) fun _ _ => .pure ?_
    have hb := acc.1.updateOrRemoveSupplyPosition_becomes market updated
    refine ⟨hacc.besides.trans hb.besides, fun market' => ?_⟩
    by_cases heq : market' = market
    · rw [heq, hb.shares_self, hupdated, hacc.shares market]
      exact Account.shares_of_supply hget
    · rw [hb.shares_ne .supply market' heq]
      exact hacc.shares market'

/-- **Threshold updates** change no shares. -/
theorem syncAccountThresholds_spares :
    Leaves (fun s => base.Spares id s.toSystem) (syncAccountThresholds h timestamp target scope)
      fun _ s => base.Spares id s.toSystem := by
  refine Ends.start fun t ht => ?_
  obtain ⟨st, hst⟩ : ∃ st, t.store = st := ⟨_, rfl⟩
  refine Leaves.via (fun s => s.store = st) ?_ fun s hs => hs ▸ hst
  have hreads : ∀ s s' : Invocation W, Reads h timestamp s s' → s.store = st → s'.store = st :=
    fun s s' hr hs => (congrArg System.store hr.system).trans hs
  have hend : ∀ s : Invocation W, s.store = st → base.Spares id s.toSystem := fun s hs =>
    ht.trans (.of_same (by rw [hs, hst]) (by rw [hs, hst]))
  refine Leaves.store (fun _ hs => hs) ?_
  cases hm : st.metas.get? target with
  | none => exact Ends.pure fun s hs => hend s hs
  | some m =>
    refine Ends.ite (fun _ => Ends.pure fun s hs => hend s hs) fun _ =>
      Leaves.step (Within.along Storage.tryAccountOwner_reads hreads) fun owner _ => ?_
    cases owner with
    | none => exact Ends.pure fun s hs => hend s hs
    | some owner =>
      refine Leaves.step (.loop (I := fun r : Account × Bool => (Storage.accountFromParts owner m
        (st.getSupplyPositions target) (if scope = .fullTuple then
          st.getDebtPositions target else .empty)).Moves .supply (· = ·) r.1)
        (fun acc market _ hacc => syncThresholdOf_moves hreads hacc) _ ⟨.refl, fun _ => rfl⟩)
        fun r hr => Ends.bind (Q := fun _ s => base.Spares id s.toSystem)
          (Ends.modify fun s hs => ?_) fun _ => SparesOnly.leaves (.idle h timestamp ?_)
      · obtain rfl := hs
        by_cases hchanged : r.2 = true
        · simp only [if_pos hchanged]
          have hw : s.store.Writes target
              { r.1 with borrowPositions := s.store.getDebtPositions target }
              (s.store.setSupplyPositions target r.1.supplyPositions) :=
            ControllerStore.writes_supply rfl
          refine (hend s rfl).written hw (fun htarget market => ?_) fun htarget market => ?_
          · subst htarget
            exact ((hend s rfl).supply market).trans (le_of_eq (hr.shares market))
          · subst htarget
            exact (hend s rfl).debt market
        · simp only [if_neg hchanged]
          exact hend s rfl
      · exact .ite (.bind calculateAccountRiskTotals_reads.idles fun _ => .lift) .pure

theorem updateAccountThreshold_spares {hasRisks : Bool} {accountIds : List Nat} :
    Leaves (fun s => base.Spares id s.toSystem)
      (updateAccountThreshold h timestamp hasRisks accountIds)
      fun _ s => base.Spares id s.toSystem := by
  have hreset : IdleOnly h timestamp (Context.resetSpokeContext : Ctrl W Unit) :=
    .modify fun _ => ⟨rfl, rfl, rfl, fun hq => hq.congr rfl rfl rfl⟩
  exact .spare (.idle h timestamp requireNotFlashLoaning_reads.idles) fun _ => Ends.foldlM
    (P := fun _ _ (s : Invocation W) => base.Spares id s.toSystem) (fun _ _ _ _ => Leaves.spare
      (.idle h timestamp hreset) fun _ => syncAccountThresholds_spares) ()

end Risk

/-! ## Authority -/

/-- Who may act for an account: its owner, and the owner's delegates that are active managers. -/
def System.Authorised (h : ControllerHost W) (s : System W) (id : Nat) (caller : Address) : Prop :=
  caller = h.nftOwner s.pool.world id ∨ s.store.isActiveManager caller = true ∧
    caller ∈ s.store.getDelegates id (h.nftOwner s.pool.world id)

/-- A call that has read only, so far. -/
structure Invocation.Reading (h : ControllerHost W) (timestamp : Nat) (base : System W)
    (s : Invocation W) : Prop where
  system : s.toSystem = base
  quoted : s.Quoted h timestamp

theorem Leaves.and {α : Type} {P : Invocation W → Prop} {x : Ctrl W α}
    {Q Q' : α → Invocation W → Prop} (hx : Leaves P x Q) (hx' : Leaves P x Q') :
    Leaves P x fun a s => Q a s ∧ Q' a s := by
  intro s hs
  have h1 := hx s hs
  have h2 := hx' s hs
  cases hrun : x s with
  | error e s' => trivial
  | ok a s' =>
    rw [hrun] at h1 h2
    exact ⟨h1, h2⟩

section Authority

variable {base : System W} {α β : Type} {x : Ctrl W α} {R : β → Invocation W → Prop}
  {accountId : Nat} {caller : Address}

theorem Invocation.Reads.reading {s s' : Invocation W} (hr : Reads h timestamp s s')
    (hs : s.Reading h timestamp base) : s'.Reading h timestamp base :=
  ⟨hr.system.trans hs.system, hr.quoted hs.quoted⟩

theorem Invocation.Reading.working {s : Invocation W} (hs : s.Reading h timestamp base)
    (hm : MarketsRun timestamp base.pool.markets) :
    s.Working h timestamp base.store base.nft base.pool := by
  obtain ⟨rfl, hquoted⟩ := hs
  exact ⟨rfl, rfl, .refl hm, hquoted⟩

theorem Leaves.read {f : α → Ctrl W β} (hx : ReadsOnly h timestamp x)
    (hf : ∀ a, Leaves (Reading h timestamp base) (f a) R) :
    Leaves (Reading h timestamp base) (x >>= f) R :=
  .step (Within.along hx fun _ _ hr hs => hr.reading hs) fun a _ => hf a

/-- A step, and what its answer says. -/
theorem Leaves.learn {P P' : Invocation W → Prop} {Q : α → Prop} {f : α → Ctrl W β}
    (hx : Leaves P x fun a s => P' s ∧ Q a) (hf : ∀ a, Q a → Leaves P' (f a) R) :
    Leaves P (x >>= f) R :=
  Ends.bind hx fun a s hs => hf a hs.2 s hs.1

/-- The account as it is stored, under the owner of its token. -/
theorem getAccount_owner :
    Within (Reading h timestamp base) (Storage.getAccount h accountId) fun a =>
      (base.store.getSupplyPositions accountId = a.supplyPositions ∧
        base.store.getDebtPositions accountId = a.borrowPositions) ∧
      a.owner = h.nftOwner base.pool.world accountId := by
  have howner : Within (Reading h timestamp base) (Storage.accountOwner h accountId)
      fun owner => owner = h.nftOwner base.pool.world accountId := by
    refine .bind (Q := fun o => ∀ owner, o = some owner →
      owner = h.nftOwner base.pool.world accountId) ?_ fun o ho => Spec.lift
      (fun owner howner => ho owner (Fallible.orThrow_ok_iff.mp howner)) fun _ _ => trivial
    refine fun s hs => ?_
    have hworld : s.pool.world = base.pool.world := congrArg (fun b => b.pool.world) hs.system
    refine Ends.get_bind (P := Reading h timestamp base) (fun t ht => ?_) s hs
    refine Ends.ite (fun _ => Ends.pure ?_) fun _ => Ends.pure ?_
    · rintro _ rfl
      refine ⟨ht, fun owner howner => ?_⟩
      rw [← Option.some.inj howner, ht.system]
    · rintro _ rfl
      exact ⟨ht, fun _ hnone => by cases hnone⟩
  exact .store (fun _ hs => congrArg System.store hs.system) <| .unwrap fun _ _ =>
    .bind howner fun _ ho => .pure ⟨⟨rfl, rfl⟩, ho⟩

theorem requireOwnerOrDelegate_authorised :
    Within (Reading h timestamp base)
      (Account.requireOwnerOrDelegate accountId caller (h.nftOwner base.pool.world accountId))
      fun _ => base.Authorised h accountId caller := by
  refine .bind (Q := fun b => b = true → base.Authorised h accountId caller) ?_
    fun b hb => Spec.lift (fun _ hok => hb (Fallible.require_ok_iff.mp hok)) fun _ _ => trivial
  intro s hs
  have hreads : ReadsOnly h timestamp (Account.isOwnerOrDelegate accountId caller
      (h.nftOwner base.pool.world accountId) : Ctrl W Bool) := Account.isOwnerOrDelegate_reads
  cases hrun : Account.isOwnerOrDelegate accountId caller
      (h.nftOwner base.pool.world accountId) s with
  | error e s' => trivial
  | ok b s' =>
    refine ⟨(hreads.ok hrun).reading hs, fun hb => ?_⟩
    have hauth := (Account.isOwnerOrDelegate_ok hrun).mp hb
    rwa [show s.store = base.store from congrArg System.store hs.system] at hauth

/-- What a call acts on by its caller's authority. -/
theorem Leaves.acting {f : Account → Ctrl W β} (hm : MarketsRun timestamp base.pool.markets)
    (hf : base.Authorised h accountId caller → ∀ a,
      Leaves (Working h timestamp base.store base.nft base.pool) (f a) R) :
    Leaves (Reading h timestamp base) (Storage.getAccount h accountId >>= fun a =>
      Account.requireOwnerOrDelegate accountId caller a.owner >>= fun _ => f a) R := by
  refine .step getAccount_owner fun a ha => ?_
  rw [ha.2]
  exact .step requireOwnerOrDelegate_authorised fun _ hauth => Ends.pre (hf hauth a)
    fun s hs => hs.working hm

end Authority

/-! ## Opening an account -/

namespace Account

variable {base : System W} {id accountId spokeId : Nat} {caller : Address} {mode : PositionMode}
  {guard : AccountGuard}

/-- Loaded for an act, an account is its caller's to act for. -/
theorem loadOrCreateAccount_authorised (hguard : guard ≠ .supply) (hne : accountId ≠ 0) :
    Within (Reading h timestamp base) (loadOrCreateAccount h caller accountId spokeId mode guard)
      fun _ => base.Authorised h accountId caller := by
  unfold loadOrCreateAccount
  rw [if_neg hne]
  refine .bind getAccount_owner fun a ha => .bind (Q := fun _ => base.Authorised h accountId caller)
    ?_ fun _ hauth => .pure hauth
  cases guard with
  | supply => exact absurd rfl hguard
  | migrate =>
    unfold requireGuard
    rw [ha.2]
    exact .bind requireOwnerOrDelegate_authorised fun _ hauth => Spec.lift
      (fun _ _ => hauth) fun _ _ => trivial
  | multiply =>
    unfold requireGuard
    rw [ha.2]
    exact .bind requireOwnerOrDelegate_authorised fun _ hauth => .assert fun _ => Spec.lift
      (fun _ _ => hauth) fun _ _ => trivial

/-- The account in hand is the stored one, if it is the one we watch; and that one is spared. -/
structure Openable (h : ControllerHost W) (timestamp : Nat) (base : System W)
    (id accountId : Nat) (caller : Address) (guard : AccountGuard) (r : Nat × Account)
    (st : ControllerStore) (nft : PositionNft) : Prop where
  supply : r.1 = id → base.store.getSupplyPositions id = r.2.supplyPositions
  authorised : r.1 = id → guard ≠ .supply → accountId = id ∧ base.Authorised h accountId caller
  spares : ∀ s, Working h timestamp st nft base.pool s → base.Spares id s.toSystem

theorem loadOrCreateAccount_openable (hs : base.WellFormed)
    (hm : MarketsRun timestamp base.pool.markets) (hid : id < base.nft.nextTokenId) :
    Leaves (Reading h timestamp base)
      (loadOrCreateAccount h caller accountId spokeId mode guard) fun r s =>
        ∃ st nft, Openable h timestamp base id accountId caller guard r st nft ∧
          Working h timestamp st nft base.pool s := by
  intro t ht
  cases hrun : loadOrCreateAccount h caller accountId spokeId mode guard t with
  | error e s => trivial
  | ok r s =>
    obtain ⟨hr, st, nft, hopens, hworking⟩ := loadOrCreateAccount_opens.ok (ht.working hm) hrun
    have hspares : t.toSystem.Spares id s.toSystem := loadOrCreateAccount_spares.ok hrun
    -- A new account has an id of its own.
    have hold : r.1 = id → accountId ≠ 0 ∧ accountId = id := by
      rintro rfl
      split at hr
      · omega
      · exact ⟨‹_›, hr.symm⟩
    refine ⟨st, nft, ⟨fun hid' => ?_, fun hid' hguard => ?_, fun s' hs' => ?_⟩, hworking⟩
    · exact hid' ▸ (hopens.account hs.filled.toVacant).1
    · obtain ⟨hne, rfl⟩ := hold hid'
      exact ⟨rfl, ((loadOrCreateAccount_authorised hguard hne).ok ht hrun).2⟩
    · rw [← ht.system]
      exact hspares.trans (.of_same (by rw [hs'.store, hworking.store])
        (by rw [hs'.store, hworking.store]))

end Account

/-- What follows the opening of an account. -/
theorem Leaves.opening {β : Type} {base : System W} {id accountId spokeId : Nat} {caller : Address}
    {mode : PositionMode} {guard : Account.AccountGuard} {f : Nat × Account → Ctrl W β}
    {R : β → Invocation W → Prop} (hs : base.WellFormed)
    (hm : MarketsRun timestamp base.pool.markets) (hid : id < base.nft.nextTokenId)
    (hf : ∀ st nft r, Account.Openable h timestamp base id accountId caller guard r st nft →
      Leaves (Working h timestamp st nft base.pool) (f r) R) :
    Leaves (Reading h timestamp base)
      (Account.loadOrCreateAccount h caller accountId spokeId mode guard >>= f) R :=
  Ends.bind (Account.loadOrCreateAccount_openable hs hm hid) fun r s ⟨st, nft, hopen, hworking⟩ =>
    hf st nft r hopen s hworking

/-! ## Flows of a user -/

/-- The store and the tokens of `base` are those of the files it spares. -/
theorem Invocation.Working.spares {base : System W} {id : Nat} {s : Invocation W}
    (hs : s.Working h timestamp base.store base.nft base.pool) : base.Spares id s.toSystem :=
  .of_same (by rw [hs.store]) (by rw [hs.store])

/-- What a call returns is dropped. -/
theorem Leaves.discard {α : Type} {P : Invocation W → Prop} {R : Invocation W → Prop}
    {x : Ctrl W α} (hx : Leaves P x fun _ => R) :
    Leaves P (do let _ ← x : Ctrl W Unit) fun _ => R :=
  Ends.bind hx fun _ => Ends.pure fun _ hs => hs

section Flows

variable {base : System W} {st : ControllerStore} {nft : PositionNft} {id target accountId : Nat}
  {caller : Address} {a : Account}

/-- A flow that ends with the write-back of another account. -/
theorem Positions.finalizePositionFlow_other (hne : target ≠ id)
    (hbase : ∀ s, Working h timestamp st nft base.pool s → base.Spares id s.toSystem)
    {sides : PositionSides} {removeIfEmpty : Bool} :
    Leaves (Working h timestamp st nft base.pool)
      (finalizePositionFlow h target a sides removeIfEmpty)
      fun _ s => base.Spares id s.toSystem :=
  (finalizePositionFlow_spares (fun heq => absurd heq hne) (fun heq => absurd heq hne)
    fun heq => absurd heq hne).pre hbase

/-- So does every strategy on one. -/
theorem Strategies.strategyFinalize_other {β : Type} (hne : target ≠ id)
    (hbase : ∀ s, Working h timestamp st nft base.pool s → base.Spares id s.toSystem)
    {f : Account → Ctrl W β}
    (hf : ∀ b, Leaves (fun s => base.Spares id s.toSystem) (f b)
      fun _ s => base.Spares id s.toSystem) :
    Leaves (Working h timestamp st nft base.pool) (strategyFinalize h timestamp target a >>= f)
      fun _ s => base.Spares id s.toSystem := by
  unfold strategyFinalize
  simp only [bind_assoc, pure_bind]
  exact .idle Positions.enforcePostPoolSolvency_reads.idles fun _ =>
    Ends.bind (Positions.finalizePositionFlow_other hne hbase) fun _ => hf _

namespace Positions

section Acting

variable (hm : MarketsRun timestamp base.pool.markets)
  (hact : base.Authorised h accountId caller → accountId ≠ id)

include hm hact

theorem processWithdraw_spares {withdrawals : List HubPayment} {recipient : Option Address} :
    Leaves (Reading h timestamp base)
      (processWithdraw h timestamp caller accountId withdrawals recipient)
      fun _ s => base.Spares id s.toSystem :=
  .read Risk.requireNotFlashLoaning_reads fun _ => .acting hm fun hauth _ => .assert fun _ =>
    .result fun _ _ => .step settleWithdraw_within fun _ _ =>
    .idle enforcePostPoolSolvency_reads.idles fun _ =>
    Ends.bind (finalizePositionFlow_other (hact hauth) fun _ hs => hs.spares) fun _ =>
    Ends.pure fun _ hs => hs

theorem processBorrow_spares {borrows : List HubPayment} {recipient : Option Address} :
    Leaves (Reading h timestamp base)
      (processBorrow h timestamp caller accountId borrows recipient)
      fun _ s => base.Spares id s.toSystem :=
  .read Risk.requireNotFlashLoaning_reads fun _ => .acting hm fun hauth _ => .assert fun _ =>
    .result fun _ _ => .idle validatePositionEntryGates_reads.idles fun _ =>
    .step settleBorrow_within fun _ _ => .idle enforcePostPoolSolvency_reads.idles fun _ =>
    finalizePositionFlow_other (hact hauth) fun _ hs => hs.spares

end Acting

end Positions

namespace Strategies

open Positions

section Acting

variable (hm : MarketsRun timestamp base.pool.markets)

include hm

theorem processSwapDebt_spares {p : SwapDebtParams}
    (hact : base.Authorised h p.accountId caller → p.accountId ≠ id) :
    Leaves (Reading h timestamp base) (processSwapDebt h timestamp caller p)
      fun _ s => base.Spares id s.toSystem :=
  .read Risk.requireNotFlashLoaning_reads fun _ => .assert fun _ =>
    .read Context.requireHubActive_reads fun _ => .result fun _ _ => .acting hm fun hauth _ =>
    .unwrap fun _ _ => .idle prefetchStrategyPrices_reads.idles fun _ =>
    .step borrowIntoController_within fun _ _ =>
    .idle swapTokensOrPassthrough_outward.idles fun _ =>
    .step repayDebtFromController_within fun _ _ =>
    strategyFinalize_other (hact hauth) (fun _ hs => hs.spares) fun _ => Ends.pure fun _ hs => hs

theorem processSwapCollateral_spares {p : SwapCollateralParams}
    (hact : base.Authorised h p.accountId caller → p.accountId ≠ id) :
    Leaves (Reading h timestamp base) (processSwapCollateral h timestamp caller p)
      fun _ s => base.Spares id s.toSystem :=
  .read Risk.requireNotFlashLoaning_reads fun _ => .assert fun _ =>
    .read Context.requireHubActive_reads fun _ => .result fun _ _ => .acting hm fun hauth _ =>
    .idle requireCanSupply_reads.idles fun _ => .idle prefetchStrategyPrices_reads.idles fun _ =>
    .step withdrawAndSwapFromSupply_within fun _ _ => .step processDeposit_within fun _ _ =>
    strategyFinalize_other (hact hauth) (fun _ hs => hs.spares) fun _ => Ends.pure fun _ hs => hs

theorem processRepayDebtWithCollateral_spares {p : RepayWithCollateralParams}
    (hact : base.Authorised h p.accountId caller → p.accountId ≠ id) :
    Leaves (Reading h timestamp base) (processRepayDebtWithCollateral h timestamp caller p)
      fun _ s => base.Spares id s.toSystem := by
  refine .read Risk.requireNotFlashLoaning_reads fun _ => .result fun _ _ =>
    .read Context.requireHubActive_reads fun _ => .read Context.requireHubActive_reads fun _ =>
    .acting hm fun hauth _ => .idle prefetchStrategyPrices_reads.idles fun _ =>
    .step (Q := fun _ => True) ?_ fun _ _ => .step closeAfterRepay_within fun _ _ =>
    strategyFinalize_other (hact hauth) (fun _ hs => hs.spares) fun _ => Ends.pure fun _ hs => hs
  exact Within.ite (fun _ => .assert fun _ => netSettleCollateralAgainstDebt_within)
    fun _ => repayViaCollateralSwap_within

variable (hs : base.WellFormed) (hid : id < base.nft.nextTokenId)

include hs hid

theorem processMultiply_spares {p : MultiplyParams}
    (hact : base.Authorised h p.accountId caller → p.accountId ≠ id) :
    Leaves (Reading h timestamp base) (processMultiply h timestamp caller p)
      fun _ s => base.Spares id s.toSystem := by
  refine .read Risk.requireNotFlashLoaning_reads fun _ => .result fun _ _ =>
    .opening hs hm hid fun _ _ r hopen => .idle requireCanSupply_reads.idles fun _ =>
    .idle prefetchStrategyPrices_reads.idles fun _ =>
    .idle collectInitialMultiplyPayment_outward.idles fun _ =>
    .step borrowIntoController_within fun _ _ => .unwrap fun _ _ =>
    .idle swapTokensOrPassthrough_outward.idles fun _ => .unwrap fun _ _ =>
    .step processDeposit_within fun _ _ => strategyFinalize_other (fun heq => ?_) hopen.spares
      fun _ => Ends.pure fun _ hs => hs
  obtain ⟨hsame, hauth⟩ := hopen.authorised heq (by decide)
  exact hact hauth hsame

theorem processFlashPosition_spares {p : FlashPositionParams}
    (hact : base.Authorised h p.accountId caller → p.accountId ≠ id) :
    Leaves (Reading h timestamp base) (processFlashPosition h timestamp caller p)
      fun _ s => base.Spares id s.toSystem := by
  refine .read Risk.requireNotFlashLoaning_reads fun _ => .result fun _ _ =>
    .read Context.requireHubActive_reads fun _ => .assert fun _ =>
    .read (.bind (.bind .get fun _ => .pure) fun _ => .lift) fun _ => .result fun _ _ =>
    .read Context.cachedPoolSyncData_reads fun _ => .assert fun _ =>
    .opening hs hm hid fun _ _ r hopen => .idle validateCollaterals_idles fun _ =>
    .idle validateRefundAssets_reads.idles fun _ =>
    .idle prefetchStrategyPrices_reads.idles fun _ =>
    .step (Ctrl.withFlashGuard_within fundAndCall_within) fun _ _ =>
    .idle collectCollateralDeposits_outward.idles fun _ => .step processDeposit_within fun _ _ =>
    .idle refundListedAssets_outward.idles fun _ =>
    .idle requireFlashPositionStillOpen_outward.idles fun _ =>
    strategyFinalize_other (fun heq => ?_) hopen.spares fun _ =>
    .spare (.idle h timestamp requireFlashPositionStillOpen_outward.idles) fun _ =>
    Ends.pure fun _ hs => hs
  obtain ⟨hsame, hauth⟩ := hopen.authorised heq (by decide)
  exact hact hauth hsame

theorem processMigrateBlend_spares {p : MigrateBlendParams}
    (hact : base.Authorised h p.accountId caller → p.accountId ≠ id) :
    Leaves (Reading h timestamp base) (processMigrateBlend h timestamp caller p)
      fun _ s => base.Spares id s.toSystem := by
  refine .read Risk.requireNotFlashLoaning_reads fun _ =>
    .read Context.requireHubActive_reads fun _ =>
    .read (.bind .lift fun _ => .bind store_reads fun _ => .lift) fun _ => .result fun _ _ =>
    .opening hs hm hid fun _ _ r hopen => .idle prefetchStrategyPrices_reads.idles fun _ =>
    .idle (.foldlM (fun _ _ => requireCanSupply_reads.idles) ()) fun _ =>
    .step executeMigrationDebtLeg_within fun _ _ => .step sweepAndDeposit_within fun _ _ =>
    strategyFinalize_other (fun heq => ?_) hopen.spares fun _ => Ends.pure fun _ hs => hs
  obtain ⟨hsame, hauth⟩ := hopen.authorised heq (by decide)
  exact hact hauth hsame

end Acting

end Strategies

/-! ## Flows of anyone -/

namespace Positions

/-- **Supply** to whatever account: it gains. -/
theorem processSupply_spares (hm : MarketsRun timestamp base.pool.markets) (hs : base.WellFormed)
    (hid : id < base.nft.nextTokenId) {spokeId : Nat} {assets : List HubPayment} :
    Leaves (Reading h timestamp base)
      (processSupply h timestamp caller accountId spokeId assets)
      fun _ s => base.Spares id s.toSystem := by
  refine .read Risk.requireNotFlashLoaning_reads fun _ => .result fun _ _ =>
    .opening hs hm hid fun _ _ r hopen => .idle requireThirdPartyExistingSupply_reads.idles fun _ =>
    .step processDeposit_raises fun b hb => Ends.bind ((finalizePositionFlow_spares
      (fun heq _ market => ?_) (fun _ hne => absurd rfl hne) fun _ => rfl).pre hopen.spares)
    fun _ => Ends.pure fun _ hs => hs
  refine le_trans (le_of_eq ?_) (hb.shares market)
  rw [ControllerStore.sharesOf, hopen.supply heq]
  rfl

theorem getAccountBorrowOnly_within :
    Within (Reading h timestamp base) (Storage.getAccountBorrowOnly h accountId) fun a =>
      base.store.getDebtPositions accountId = a.borrowPositions :=
  .bind (Within.along Storage.getAccountMeta_reads fun _ _ hr hs => hr.reading hs) fun _ _ =>
    .bind (Within.along Storage.accountOwner_reads fun _ _ hr hs => hr.reading hs) fun _ _ =>
    .store (fun _ hs => congrArg System.store hs.system) (.pure rfl)

/-- **Repayment** for whatever account: it owes less. -/
theorem processRepay_spares (hm : MarketsRun timestamp base.pool.markets)
    {payments : List HubPayment} :
    Leaves (Reading h timestamp base) (processRepay h timestamp caller accountId payments)
      fun _ s => base.Spares id s.toSystem := by
  refine .read Risk.requireNotFlashLoaning_reads fun _ => .result fun _ _ =>
    .step getAccountBorrowOnly_within fun a ha => ?_
  refine Leaves.via (Working h timestamp base.store base.nft base.pool) ?_
    fun _ hs => hs.working hm
  refine Leaves.step settleRepay_lowers fun b hb => (finalizePositionFlow_spares
    (fun _ hne => absurd rfl hne) (fun heq _ market => (hb.shares market).trans (le_of_eq ?_))
    fun _ => rfl).pre fun _ hs => hs.spares
  rw [ControllerStore.sharesOf, ← heq, ha]
  rfl

/-! ### Legs -/

theorem applyWithdrawBatch_spares {recipient : Address} {kind : WithdrawKind}
    {entries : List PoolWithdrawEntry} :
    SparesOnly id (applyWithdrawBatch h timestamp a recipient kind entries) :=
  .bind poolCall_spares fun _ => .bind (SparesOnly.of_context
    (forEachLeg_contextOnly fun _ _ => mergeWithdrawLeg_contextOnly)) fun _ => .pure

theorem applyRepayBatch_spares {payer : Address} {actions : List PoolAction} :
    SparesOnly id (applyRepayBatch h timestamp a payer actions) :=
  .bind poolCall_spares fun _ => .bind (SparesOnly.of_context
    (forEachLeg_contextOnly fun _ _ => mergeDebtLeg_contextOnly)) fun _ => .pure

end Positions

namespace Liquidation

open Positions

variable {liquidator : Address}

theorem applyLiquidationRepayments_spares {repaid : List RepayEntry}
    {offered : Option (List HubPayment)} :
    SparesOnly id (applyLiquidationRepayments h timestamp liquidator a repaid offered) :=
  SparesOnly.skip h timestamp (.foldlM (fun _ _ => .bind enforceSpokeAssetFlags_reads.idles fun _ =>
    .bind .lift fun _ => .bind Payments.transferAmountMeasured_outward.idles fun _ =>
    .bind .lift fun _ => .bind .lift fun _ => .bind .lift fun _ => .pure) _) fun _ =>
    .bind applyRepayBatch_spares fun _ => .pure

theorem applyLiquidationSeizures_spares {seized : List SeizeEntry} :
    SparesOnly id (applyLiquidationSeizures h timestamp liquidator a seized) :=
  SparesOnly.skip h timestamp (.foldlM (fun _ _ => seizureEntry_reads.idles) []) fun _ =>
    .bind applyWithdrawBatch_spares fun _ => .pure

theorem executeBadDebtCleanup_spares (hne : id ≠ target) :
    SparesOnly id (executeBadDebtCleanup h timestamp target a) := by
  have hexits : ∀ {side : UsageSide} {market : HubAssetKey} {shares : Int}
      {entries : List PoolSeizeEntry}, SparesOnly id (do
        Context.applySpokeExit a.spokeId side market shares
        return entries : Ctrl W (List PoolSeizeEntry)) :=
    SparesOnly.skip h timestamp Context.applySpokeExit_idles fun _ => .pure
  exact .bind (.foldlM (fun _ _ => hexits) []) fun _ => .bind (.foldlM (fun _ _ => hexits) _)
    fun _ => .bind poolCall_spares fun _ => .bind Context.persistSpokeUsage_spares fun _ =>
    Account.removeAccountAndBurnNft_spares hne

theorem checkBadDebtAfterLiquidation_spares (hne : id ≠ target) {totals : Risk.AccountRiskTotals} :
    SparesOnly id (checkBadDebtAfterLiquidation h timestamp target a totals) :=
  .ite (Account.cleanupAccountIfEmpty_spares hne) (.ite (executeBadDebtCleanup_spares hne) .pure)

theorem createAccountWith_id {spokeId : Nat} {mode : PositionMode}
    {admission : Account.SpokeAdmission} :
    Leaves (Reading h timestamp base) (Account.createAccountWith h caller spokeId mode admission)
      fun r _ => r.1 = base.nft.nextTokenId := by
  have hmint : Leaves (Reading h timestamp base) (do
      let accountId ← nftMintCall h caller
      let account : Account :=
        { owner := caller, spokeId, mode, supplyPositions := .empty, borrowPositions := .empty }
      modifyStore fun s => { s with metas := s.metas.set accountId { spokeId, mode } }
      return (accountId, account)) fun r _ => r.1 = base.nft.nextTokenId := by
    refine Ends.bind (Q := fun minted _ => minted = base.nft.nextTokenId)
      (Ends.get_bind fun t ht => Leaves.assert fun _ => Ends.bind (Q := fun _ _ => True)
        (Ends.modify fun _ _ => trivial) fun _ => Ends.pure fun _ _ => ?_) fun minted =>
      Ends.bind (Q := fun _ _ => minted = base.nft.nextTokenId) (Ends.modify fun _ hid => hid)
      fun _ => Ends.pure fun _ hid => hid
    exact congrArg (fun b : System W => b.nft.nextTokenId) ht.system
  refine Leaves.assert fun _ => ?_
  cases admission with
  | activeOnly => exact .read Context.activeSpoke_reads fun _ => hmint
  | allowDeprecated => exact .read Context.spokeConfig_reads fun _ => hmint

/-- The receiver of a credit, if it is the account we watch, has in hand the shares it stores. -/
def Watched (base : System W) (id : Nat) (receiver : Option (Nat × Account)) : Prop :=
  ∀ r ∈ receiver, r.1 = id →
    ∀ market, base.store.sharesOf id .supply market ≤ r.2.shares .supply market

theorem resolveSeizeReceiver_watched (hid : id < base.nft.nextTokenId) {mode : SeizeMode} :
    Leaves (Reading h timestamp base) (resolveSeizeReceiver h liquidator accountId a mode)
      fun receiver s => base.Spares id s.toSystem ∧ Watched base id receiver := by
  have hspares : ∀ s, Reading h timestamp base s → base.Spares id s.toSystem := by
    rintro s ⟨rfl, -⟩
    exact .refl
  cases mode with
  | transfer => exact Ends.pure fun s hs => ⟨hspares s hs, nofun⟩
  | credit requested =>
    refine Ends.ite (fun _ => ?_) fun _ => ?_
    · refine Ends.bind (createAccountWith_id.and
        (Account.createAccountWith_spares.leaves.pre hspares)) fun r => Ends.pure ?_
      rintro s ⟨hr, hs⟩
      refine ⟨hs, fun r' hr' heq => ?_⟩
      obtain rfl := Option.some.inj hr'
      omega
    · refine Ends.bind (Q := fun receiver s => Reading h timestamp base s ∧
        base.store.getSupplyPositions requested = receiver.supplyPositions) ?_ fun receiver => ?_
      · exact Leaves.assert fun _ => .step getAccount_owner fun b hb => .assert fun _ =>
          .assert fun _ => Ends.pure fun s hs => ⟨hs, hb.1.1⟩
      · refine fun s hs => Leaves.read Account.requireOwnerOrDelegate_reads
          (fun _ => Ends.pure fun s hs' => ⟨hspares s hs', ?_⟩) s hs.1
        intro r hr heq market
        obtain rfl := Option.some.inj hr
        refine le_of_eq ?_
        rw [ControllerStore.sharesOf, ← heq, hs.2]
        rfl

/-- What is credited to a receiver is added to what it has in hand. -/
theorem takeSeizures_watched {receiver : Option (Nat × Account)} {fresh : Bool}
    {seized : List SeizeEntry} (hreceiver : Watched base id receiver) :
    Leaves (fun s => base.Spares id s.toSystem)
      (takeSeizures h timestamp liquidator a receiver fresh seized)
      fun r s => base.Spares id s.toSystem ∧ Watched base id r.2 := by
  cases receiver with
  | none =>
    exact .spare applyLiquidationSeizures_spares fun _ => Ends.pure fun s hs => ⟨hs, nofun⟩
  | some receiver =>
    obtain ⟨receiverId, receiving⟩ := receiver
    have hP : ∀ s s' : Invocation W, Idles h timestamp s s' → base.Spares id s.toSystem →
        base.Spares id s'.toSystem := fun _ _ hi hs => hs.trans hi.spares
    have hcredit : Leaves (fun s => base.Spares id s.toSystem)
        (applyLiquidationShareCredit timestamp a receiving seized) fun r s =>
          base.Spares id s.toSystem ∧ receiving.Moves .supply (· ≤ ·) r.2 := by
      refine Leaves.step (.loop (I := fun acc : CreditAcc =>
        receiving.Moves .supply (· ≤ ·) acc.receiver)
        (fun _ _ _ hacc => creditSeizure_raises hP hacc) _ ⟨.refl, fun _ => le_rfl⟩)
        fun acc hacc => Ends.ite (fun _ => Leaves.spare poolCall_spares fun _ => Ends.pure ?_)
          fun _ => Ends.pure ?_
      · exact fun s hs => ⟨hs, hacc⟩
      · exact fun s hs => ⟨hs, hacc⟩
    refine .spare (.idle h timestamp requireCreditPositionLimit_reads.idles) fun _ =>
      Leaves.learn hcredit fun r hr => Ends.pure fun s hs => ⟨hs, fun r' hr' heq market => ?_⟩
    obtain rfl := Option.some.inj hr'
    exact (hreceiver (receiverId, receiving) rfl heq market).trans (hr.shares market)

theorem finalizeReceiver_spares {receiver : Option (Nat × Account)} {seized : List SeizeEntry}
    (hreceiver : Watched base id receiver) :
    Leaves (fun s => base.Spares id s.toSystem) (finalizeReceiver h receiver seized)
      fun _ s => base.Spares id s.toSystem := by
  cases receiver with
  | none => exact Ends.pure fun _ hs => hs
  | some receiver =>
    exact .spare (.idle h 0 recordShareCreditUpdates_reads.idles) fun _ =>
      finalizePositionFlow_spares (fun heq _ => hreceiver receiver rfl heq)
        (fun _ hne => absurd rfl hne) fun _ => rfl

/-- An account without debt is not liquidated, and no other account's liquidation costs it
anything. -/
theorem processLiquidation_spares (hid : id < base.nft.nextTokenId)
    (hfree : accountId = id → base.store.getDebtPositions id = .empty)
    {payments : List HubPayment} {mode : SeizeMode} :
    Leaves (Reading h timestamp base)
      (processLiquidation h timestamp liquidator accountId payments mode)
      fun _ s => base.Spares id s.toSystem := by
  refine .read Risk.requireNotFlashLoaning_reads fun _ => .step getAccount_owner fun a ha =>
    .result fun _ _ => .learn (resolveSeizeReceiver_watched hid) fun receiver hreceiver => ?_
  by_cases heq : accountId = id
  · have hnone : a.borrowPositions.isEmpty = true := by
      rw [SortedMap.isEmpty_iff, ← ha.1.2, heq, hfree heq]
    refine Ends.bind (Q := fun _ _ => False) ?_ fun _ _ hf => hf.elim
    exact Ends.bind (Q := fun _ _ => False) (Leaves.assert fun hdebt => absurd hnone hdebt)
      fun _ _ hf => hf.elim
  · refine .spare (.idle h timestamp buildLiquidationPlan_reads.idles) fun plan =>
      .result fun _ _ => .result fun _ _ => .spare applyLiquidationRepayments_spares fun _ =>
      .result fun _ _ => .result fun seized _ => .learn (takeSeizures_watched hreceiver)
      fun r hr => .spare (.idle h timestamp Risk.calculateAccountRiskTotals_reads.idles)
      fun _ => Ends.bind (finalizePositionFlow_spares (fun h => absurd h heq)
        (fun h => absurd h heq) fun h => absurd h heq) fun _ =>
      Ends.bind (finalizeReceiver_spares hr) fun _ =>
      Leaves.spare (checkBadDebtAfterLiquidation_spares (Ne.symm heq)) fun _ =>
      Ends.pure fun _ hs => hs

/-- So it is with bad debt. -/
theorem socializeBadDebt_spares (hfree : accountId = id → base.store.getDebtPositions id = .empty)
    {gate : BadDebtGate} :
    Leaves (Reading h timestamp base) (socializeBadDebt h timestamp accountId gate)
      fun _ s => base.Spares id s.toSystem := by
  refine .step getAccount_owner fun a ha => .assert fun hdebt =>
    .read Risk.calculateAccountRiskTotals_reads fun _ => .assert fun _ => ?_
  have hne : id ≠ accountId := by
    rintro rfl
    exact hdebt (by rw [SortedMap.isEmpty_iff, ← ha.1.2, hfree rfl])
  refine (executeBadDebtCleanup_spares hne).leaves.pre ?_
  rintro s ⟨rfl, -⟩
  exact .refl

end Liquidation

end Flows

/-! ## Calls -/

open Positions Strategies Liquidation Governance

/-- Who calls for which account, where the call takes from it or burdens it. -/
def ControllerCall.acts : ControllerCall → Option (Address × Nat)
  | borrow caller accountId _ _ => some (caller, accountId)
  | withdraw caller accountId _ _ => some (caller, accountId)
  | flashPosition caller p => some (caller, p.accountId)
  | multiply caller p => some (caller, p.accountId)
  | swapDebt caller p => some (caller, p.accountId)
  | swapCollateral caller p => some (caller, p.accountId)
  | repayDebtWithCollateral caller p => some (caller, p.accountId)
  | migrateFromBlend caller p => some (caller, p.accountId)
  | _ => none

/-- The account a call liquidates, or whose bad debt it writes off. -/
def ControllerCall.seizes : ControllerCall → Option Nat
  | liquidate _ accountId _ _ => some accountId
  | cleanBadDebt accountId => some accountId
  | forceSocializeBadDebt accountId => some accountId
  | _ => none

section Calls

variable {base : System W} {id : Nat}

theorem Governance.whenNotPaused_reading {α : Type} {x : Ctrl W α} {R : α → Invocation W → Prop}
    (hx : Leaves (Reading h timestamp base) x R) :
    Leaves (Reading h timestamp base) (whenNotPaused x) R :=
  .read store_reads fun _ => .assert fun _ => hx

theorem Account.setAccountDelegate_spares {caller delegate : Address} {accountId : Nat}
    {add : Bool} : SparesOnly id (setAccountDelegate h caller accountId delegate add) := by
  have hwrite : ∀ delegates : ControllerStore → SortedMap Nat DelegateGrant,
      SparesOnly id (modifyStore fun s => { s with delegates := delegates s } : Ctrl W Unit) :=
    fun _ => modifyStore_spares (fun _ => rfl) fun _ => rfl
  refine SparesOnly.skip h 0 requireAccountOwner_reads.idles fun _ =>
    SparesOnly.skip h 0 store_reads.idles fun s => .ite ?_ ?_
  · exact .bind .lift fun _ => .ite .pure (.bind .lift fun _ => hwrite _)
  · split
    · exact .pure
    · exact .ite (hwrite _) (hwrite _)

theorem Markets.claimRevenueForAsset_spares {market : HubAssetKey} :
    SparesOnly id (claimRevenueForAsset h timestamp market) :=
  SparesOnly.skip h timestamp store_reads.idles fun _ => .bind .lift fun _ =>
    SparesOnly.skip h timestamp world_outward.idles fun _ => .bind poolCall_spares fun _ =>
    SparesOnly.skip h timestamp Payments.balanceDeltaSince_outward.idles fun _ =>
    .ite (SparesOnly.skip h timestamp Payments.transferAmountMeasured_outward.idles fun _ => .pure)
      .pure

/-- **Calls.** Whatever is called without authority over an account, and other than to seize from
it while it owes something, spares it. -/
theorem ControllerCall.body_spares (hs : base.WellFormed)
    (hm : MarketsRun timestamp base.pool.markets) (hid : id < base.nft.nextTokenId)
    {call : ControllerCall}
    (hacts : ∀ caller, call.acts = some (caller, id) → ¬ base.Authorised h id caller)
    (hseizes : call.seizes = some id → base.store.getDebtPositions id = .empty) :
    Leaves (Reading h timestamp base) (call.body h timestamp)
      fun _ s => base.Spares id s.toSystem := by
  have hact : ∀ {caller accountId}, call.acts = some (caller, accountId) →
      base.Authorised h accountId caller → accountId ≠ id := by
    rintro caller _ hcall hauth rfl
    exact hacts caller hcall hauth
  have hpool : ∀ {x : Ctrl W Unit}, SparesOnly id x →
      Leaves (Reading h timestamp base) x fun _ s => base.Spares id s.toSystem := fun hx =>
    hx.leaves.pre fun s hread => hread.system ▸ .refl
  have hmarket : ∀ {x : Ctrl W Unit}, SparesOnly id x → SparesOnly id (whenNotPaused x) :=
    fun hx => SparesOnly.skip h timestamp store_reads.idles fun _ => .bind .lift fun _ => hx
  cases hconf : call.isConfiguration with
  | true =>
    refine hpool (Along.mono (call.configuration_pool h hconf) fun s s' hsame => .of_same ?_ ?_)
    · rw [ControllerStore.getSupplyPositions, hsame.supply, ← ControllerStore.getSupplyPositions]
    · rw [ControllerStore.getDebtPositions, hsame.debt, ← ControllerStore.getDebtPositions]
  | false =>
    cases call with
    | supply => exact whenNotPaused_reading (processSupply_spares hm hs hid).discard
    | borrow => exact whenNotPaused_reading (processBorrow_spares hm (hact rfl))
    | withdraw => exact (processWithdraw_spares hm (hact rfl)).discard
    | repay => exact processRepay_spares hm
    | liquidate => exact (processLiquidation_spares hid fun heq => hseizes (congrArg _ heq)).discard
    | cleanBadDebt | forceSocializeBadDebt =>
      exact .read Risk.requireNotFlashLoaning_reads fun _ =>
        socializeBadDebt_spares fun heq => hseizes (congrArg _ heq)
    | flashLoan =>
      exact hpool <| hmarket <| SparesOnly.skip h timestamp Risk.requireNotFlashLoaning_reads.idles
        fun _ => .bind .lift fun _ => SparesOnly.skip h timestamp
        Context.requireHubActive_reads.idles fun _ => SparesOnly.skip h timestamp
        (.bind world_outward.idles fun _ => .lift) fun _ =>
        .bind (withFlashGuard_spares poolCall_spares) fun _ => .pure
    | flashPosition =>
      exact whenNotPaused_reading (processFlashPosition_spares hm hs hid (hact rfl)).discard
    | multiply => exact whenNotPaused_reading (processMultiply_spares hm hs hid (hact rfl)).discard
    | swapDebt => exact whenNotPaused_reading (processSwapDebt_spares hm (hact rfl))
    | swapCollateral => exact whenNotPaused_reading (processSwapCollateral_spares hm (hact rfl))
    | repayDebtWithCollateral =>
      exact whenNotPaused_reading (processRepayDebtWithCollateral_spares hm (hact rfl))
    | migrateFromBlend =>
      exact whenNotPaused_reading (processMigrateBlend_spares hm hs hid (hact rfl)).discard
    | updateIndexes =>
      exact hpool <| hmarket <| SparesOnly.skip h timestamp Risk.requireNotFlashLoaning_reads.idles
        fun _ => poolCall_spares
    | claimRevenue =>
      exact hpool <| hmarket <| .bind (SparesOnly.skip h timestamp
        Risk.requireNotFlashLoaning_reads.idles fun _ => .foldlM (fun _ _ =>
        .bind Markets.claimRevenueForAsset_spares fun _ => .pure) []) fun _ => .pure
    | updateAccountThreshold =>
      exact whenNotPaused_reading (Risk.updateAccountThreshold_spares.pre
        fun s hread => hread.system ▸ .refl)
    | recapitalize =>
      exact hpool <| .bind (SparesOnly.skip h timestamp Risk.requireNotFlashLoaning_reads.idles
        fun _ => .bind .lift fun _ => SparesOnly.skip h timestamp
        Payments.transferAmountMeasured_outward.idles fun _ => poolCall_spares) fun _ => .pure
    | addDelegate => exact hpool (hmarket Account.setAccountDelegate_spares)
    | removeDelegate => exact hpool Account.setAccountDelegate_spares
    | createLiquidityPool =>
      exact hpool <| SparesOnly.skip h timestamp Context.requireHubActive_reads.idles fun _ =>
        .bind .lift fun _ => poolCall_spares
    | upgradeLiquidityPoolParams => exact hpool (.bind poolCall_spares fun _ => poolCall_spares)
    | _ => cases hconf

end Calls

/-! ## Runs -/

/-- A step in which nobody with authority over the account acts for it, and which liquidates it
only if `seizable`. -/
inductive UnattendedStep (h : ControllerHost W) (id : Nat) (seizable : Prop) :
    System W × Nat → System W × Nat → Prop
  | call {s s' : System W} {timestamp timestamp' : Nat} (call : ControllerCall)
      (hacts : ∀ caller, call.acts = some (caller, id) → ¬ s.Authorised h id caller)
      (hseizes : call.seizes = some id → seizable) (hle : timestamp ≤ timestamp')
      (hexec : call.exec h timestamp' s = .ok s') :
      UnattendedStep h id seizable (s, timestamp) (s', timestamp')
  | outside {s : System W} {timestamp : Nat} (w : W) :
      UnattendedStep h id seizable (s, timestamp) ({ s with pool.world := w }, timestamp)

abbrev UnattendedSteps (h : ControllerHost W) (id : Nat) (seizable : Prop) :=
  Relation.ReflTransGen (UnattendedStep h id seizable)

section Runs

variable {id : Nat} {seizable : Prop} {p p' : System W × Nat}

theorem UnattendedStep.controller (hstep : UnattendedStep h id seizable p p') :
    ControllerStep h p p' := by
  cases hstep with
  | call call _ _ hle hexec => exact .call call hle hexec
  | outside w => exact .outside w

theorem UnattendedSteps.controller (hrun : UnattendedSteps h id seizable p p') :
    ControllerSteps h p p' :=
  Relation.ReflTransGen.mono (fun _ _ => UnattendedStep.controller) _ _ hrun

/-- **One step** spares the account. -/
theorem UnattendedStep.spares {w : W} {t₀ : Nat} (hsteps : ControllerSteps h (.deployed w, t₀) p)
    (hid : id < p.1.nft.nextTokenId) (hstep : UnattendedStep h id seizable p p')
    (hfree : seizable → p.1.store.getDebtPositions id = .empty) : p.1.Spares id p'.1 := by
  cases hstep with
  | @call s s' timestamp timestamp' call hacts hseizes hle hexec =>
    have hmarkets : MarketsRun timestamp' s.pool.markets :=
      (ControllerSteps.markets h hsteps (System.deployed_markets w)).mono hle
    have hwf : s.WellFormed := System.Reachable.wellFormed ⟨w, t₀, timestamp, hsteps⟩
    obtain ⟨t, hbody, rfl⟩ := ControllerCall.exec_ok hexec
    exact (ControllerCall.body_spares hwf hmarkets hid hacts fun hcall =>
      hfree (hseizes hcall)).ok ⟨rfl, quoted_fresh rfl rfl⟩ hbody
  | outside w => exact .of_same rfl rfl

/-- What owes nothing and is spared owes nothing. -/
theorem System.Spares.debtFree {s s' : System W} (hspares : s.Spares id s') (hs' : s'.WellFormed)
    (hfree : s.store.getDebtPositions id = .empty) : s'.store.getDebtPositions id = .empty := by
  refine SortedMap.eq_empty fun market => ?_
  by_contra hne
  have hholds : s'.store.Holds id market .borrow :=
    SortedMap.contains_iff.mpr (Option.ne_none_iff_exists'.mp hne)
  have hpos := ControllerStore.sharesOf_pos hs' hholds
  have hle := hspares.debt market
  have hzero : s.store.sharesOf id .borrow market = 0 := by
    rw [ControllerStore.sharesOf, hfree]
    rfl
  omega

/-- What holds shares has a token. -/
theorem System.WellFormed.token_of_shares {s : System W} (hs : s.WellFormed) {market : HubAssetKey}
    (hpos : 0 < s.store.sharesOf id .supply market) : s.nft.tokens.contains id = true := by
  rw [← hs.live]
  cases hmeta : s.store.metas.get? id with
  | some m => exact SortedMap.contains_iff.mpr ⟨m, hmeta⟩
  | none =>
    have hzero : s.store.sharesOf id .supply market = 0 := by
      rw [ControllerStore.sharesOf, ControllerStore.getSupplyPositions, (hs.orphan id hmeta).1]
      rfl
    omega

theorem UnattendedSteps.spares {w : W} {t₀ : Nat} (hsteps : ControllerSteps h (.deployed w, t₀) p)
    (hid : id < p.1.nft.nextTokenId) (hrun : UnattendedSteps h id seizable p p')
    (hfree : seizable → p.1.store.getDebtPositions id = .empty) : p.1.Spares id p'.1 := by
  induction hrun with
  | refl => exact .refl
  | @tail q q' hrun hstep ih =>
    have hq := hsteps.trans (UnattendedSteps.controller hrun)
    have hcounter : p.1.nft.nextTokenId ≤ q.1.nft.nextTokenId :=
      (ControllerSteps.inBalance (UnattendedSteps.controller hrun)
        (System.Reachable.inBalance ⟨w, t₀, p.2, hsteps⟩)).evolves.counter
    have hwf : q.1.WellFormed := System.Reachable.wellFormed ⟨w, t₀, q.2, hq⟩
    exact ih.trans (hstep.spares hq (by omega) fun hseizable => ih.debtFree hwf (hfree hseizable))

/-- **Sovereignty.** Through whatever calls, at whatever times, by whomever else, an account that
exists loses no supply share of any market and takes on no debt share; it keeps its token while it
holds anything, and stays free of debt if it was. Only its owner and its delegates act against it,
and only while it owes something can it be liquidated. -/
theorem account_sovereignty {w : W} {t₀ : Nat} (hsteps : ControllerSteps h (.deployed w, t₀) p)
    (hid : id < p.1.nft.nextTokenId) (hrun : UnattendedSteps h id seizable p p')
    (hfree : seizable → p.1.store.getDebtPositions id = .empty) :
    p.1.Spares id p'.1 ∧
      (p.1.store.getDebtPositions id = .empty → p'.1.store.getDebtPositions id = .empty) ∧
      ∀ market, 0 < p.1.store.sharesOf id .supply market →
        p'.1.nft.tokens.contains id = true := by
  have hspares := hrun.spares hsteps hid hfree
  have hwf : p'.1.WellFormed :=
    System.Reachable.wellFormed ⟨w, t₀, p'.2, hsteps.trans hrun.controller⟩
  exact ⟨hspares, fun h0 => hspares.debtFree hwf h0, fun market hpos =>
    hwf.token_of_shares (hpos.trans_le (hspares.supply market))⟩

end Runs

/-- The second account may be seized from, but owes nothing. A stranger supplies to it, the owner
draws on the first account, and the thresholds of both are updated. -/
theorem account_sovereignty_sample :
    ∃ s s' : System Sample.Balances, UnattendedSteps Sample.controllerHost 2 True
        (s, 1_000) (s', 1_000) ∧
      s.store.sharesOf 2 .supply Sample.key = 300 * ray ∧
      (∀ market, s.store.sharesOf 2 .supply market ≤ s'.store.sharesOf 2 .supply market) ∧
      s'.store.getDebtPositions 2 = .empty ∧ s'.nft.tokens.contains 2 = true := by
  obtain ⟨s, hrun, hshares, hfree, hid, hany⟩ : ∃ s : System Sample.Balances,
      runCalls Sample.controllerHost 1_000 (.deployed Sample.opening) Sample.calls = .ok s ∧
      s.store.sharesOf 2 .supply Sample.key = 300 * ray ∧
      (s.store.getDebtPositions 2).isEmpty = true ∧ 2 < s.nft.nextTokenId ∧
      (runCalls Sample.controllerHost 1_000 s
        [.supply 6 2 1 [(Sample.key, 10_000)]]).toOption.any (fun s1 =>
      (runCalls Sample.controllerHost 1_000 s1
        [.withdraw 5 1 [(Sample.key, 1_000_000)] none]).toOption.any (fun s2 =>
      (runCalls Sample.controllerHost 1_000 s2
        [.updateAccountThreshold true [1, 2]]).toOption.any (fun _ => True) = true) = true) =
        true :=
    runCalls_ok (by decide +kernel)
  obtain ⟨s1, hrun1, hany⟩ := runCalls_ok hany
  obtain ⟨s2, hrun2, hany⟩ := runCalls_ok hany
  obtain ⟨s3, hrun3, -⟩ := runCalls_ok hany
  have hsteps : UnattendedSteps Sample.controllerHost 2 True (s, 1_000) (s3, 1_000) :=
    .head (.call _ (fun _ hacts => by cases hacts) (fun _ => trivial) le_rfl
      (runCalls_single hrun1)) <|
    .head (.call _ (fun _ hacts => by cases hacts) (fun _ => trivial) le_rfl
      (runCalls_single hrun2)) <|
    .single (.call _ (fun _ hacts => by cases hacts) (fun _ => trivial) le_rfl
      (runCalls_single hrun3))
  obtain ⟨hspares, hfree', htoken⟩ := account_sovereignty (runCalls_steps hrun) hid hsteps
    fun _ => SortedMap.isEmpty_iff.mp hfree
  refine ⟨s, s3, hsteps, hshares, hspares.supply, hfree' (SortedMap.isEmpty_iff.mp hfree),
    htoken Sample.key ?_⟩
  rw [hshares]
  decide

end Lending
