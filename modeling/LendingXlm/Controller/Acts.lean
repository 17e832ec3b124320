import LendingXlm.Controller.Configuration
import LendingXlm.Controller.Gates

/-!
# Acts

A call is a sequence of acts. It writes accounts and settings, has the pool act on what was
pulled for it, pays out tokens, lets the router, a receiver or Blend run, and mints or burns the
tokens of accounts.

* `Act`: the acts, on whole systems;
* `Performs`: computations that return by acts only, and the rules of it;
* `ControllerCall.body_performs`: every call performs, so what every act keeps every run keeps.
-/

namespace Lending

open Transaction Ctrl Invocation

variable {W : Type} {h : ControllerHost W} {timestamp : Nat}
  {signer grantor : Option Address}

/-- One act of a call that `signer` signed, where grants are made by `grantor`. -/
inductive Act (h : ControllerHost W) (timestamp : Nat) (signer grantor : Option Address) :
    System W → System W → Prop
  | write {s : System W} (st : ControllerStore) (hsame : st.delegates = s.store.delegates) :
      Act h timestamp signer grantor s { s with store := st }
  | grant {s : System W} {caller : Address} (st : ControllerStore) (accountId : Nat)
      (hgrantor : grantor = some caller)
      (hother : ∀ id ≠ accountId, st.delegates.get? id = s.store.delegates.get? id)
      (hself : st.delegates.get? accountId = s.store.delegates.get? accountId ∨
        ∀ grant, st.delegates.get? accountId = some grant → grant.grantedBy = caller) :
      Act h timestamp signer grantor s { s with store := st }
  | flag {s : System W} (ongoing : Bool) :
      Act h timestamp signer grantor s { s with flashLoanOngoing := ongoing }
  /-- The pool is called on what was pulled for this call. -/
  | pool {s : System W} {w : W} {pool : PoolCtx W} (call : PoolCall)
      (hpull : Pulled h.toPoolHost s.pool.world call.incoming w)
      (hexec : call.exec h.toPoolHost timestamp { s.pool with world := w } = .ok pool) :
      Act h timestamp signer grantor s { s with pool }
  | pay {s : System W} {w : W} {asset sender recipient : Address} {amount : Int}
      (hsender : sender = h.controller ∨ signer = some sender)
      (hmove : h.transfer s.pool.world asset sender recipient amount = .ok w) :
      Act h timestamp signer grantor s { s with pool.world := w }
  | route {s : System W} {w : W} {router sender : Address} {amountIn : Int} {swap : List UInt8}
      (hrun : h.executeStrategy s.pool.world router sender amountIn swap = .ok w) :
      Act h timestamp signer grantor s { s with pool.world := w }
  | receive {s : System W} {w : W} {receiver initiator asset : Address} {accountId : Nat}
      {amount fee received : Int} {data : List UInt8}
      (hrun : h.executeFlashPosition s.pool.world receiver initiator accountId asset amount fee
        received h.controller data = .ok w) :
      Act h timestamp signer grantor s { s with pool.world := w }
  | blend {s : System W} {w : W} {blendPool holder : Address} {requests : List BlendRequest}
      (hrun : h.blendSubmit s.pool.world blendPool holder h.controller h.controller requests =
        .ok w) :
      Act h timestamp signer grantor s { s with pool.world := w }
  | mint {s : System W} (owner : Address) (hsigner : signer = some owner) :
      Act h timestamp signer grantor s { s with
        nft := ⟨s.nft.nextTokenId + 1, s.nft.tokens.set s.nft.nextTokenId ()⟩
        pool.world := h.nftAssign s.pool.world s.nft.nextTokenId owner }
  | forget {s : System W} (accountId : Nat) :
      Act h timestamp signer grantor s { s with store := s.store.removeAccountEntry accountId }
  | burn {s : System W} (accountId : Nat) :
      Act h timestamp signer grantor s { s with
        nft.tokens := s.nft.tokens.erase accountId
        pool.world := h.nftRelease s.pool.world accountId }

/-- Any number of acts. -/
abbrev Acts (h : ControllerHost W) (timestamp : Nat) (signer grantor : Option Address) :=
  Relation.ReflTransGen (Act h timestamp signer grantor)

/-- Since `base` there were acts only, and the flash-loan flag is back where it was. -/
structure Invocation.Acted (h : ControllerHost W) (timestamp : Nat)
    (signer grantor : Option Address) (base : System W) (s : Invocation W) : Prop where
  acts : Acts h timestamp signer grantor base s.toSystem
  flag : s.flashLoanOngoing = base.flashLoanOngoing

/-- Where `x` returns, the system got there by acts. -/
abbrev Performs (h : ControllerHost W) (timestamp : Nat) (signer grantor : Option Address)
    {α : Type} (x : Ctrl W α) : Prop :=
  Reaches (fun s s' : Invocation W => Acted h timestamp signer grantor s.toSystem s') x

instance : Std.Refl (fun s s' : Invocation W =>
    Acted h timestamp signer grantor s.toSystem s') where
  refl _ := ⟨.refl, rfl⟩

instance : IsTrans (Invocation W) (fun s s' =>
    Acted h timestamp signer grantor s.toSystem s') where
  trans _ _ _ hst htu := ⟨hst.acts.trans htu.acts, htu.flag.trans hst.flag⟩

/-! ## Rules -/

namespace Performs

variable {α : Type} {x : Ctrl W α}

theorem context (hx : ContextOnly x) : Performs h timestamp signer grantor x :=
  .of_along (hx.mono fun s s' (hs : s'.toSystem = s.toSystem) =>
    ⟨hs ▸ .refl, congrArg System.flashLoanOngoing hs⟩)

theorem reads (hx : ReadsOnly h timestamp x) : Performs h timestamp signer grantor x :=
  context (.of_reads h timestamp hx)

theorem store : Performs h timestamp signer grantor (Ctrl.store : Ctrl W ControllerStore) :=
  .bind .get fun _ => .pure

theorem world : Performs h timestamp signer grantor (Ctrl.world : Ctrl W W) :=
  .bind .get fun _ => .pure

theorem write {f : ControllerStore → ControllerStore} (hf : ∀ st, (f st).delegates = st.delegates) :
    Performs h timestamp signer grantor (modifyStore f : Ctrl W Unit) :=
  .modify fun s => ⟨.single (.write (f s.store) (hf s.store)), rfl⟩

/-- The guard puts the flag back, and an outer guard's stays up. -/
theorem withFlashGuard (hx : Performs h timestamp signer grantor x) :
    Performs h timestamp signer grantor (Ctrl.withFlashGuard x) := by
  intro s
  refine Ends.get_bind fun t ht => Ends.bind (Q := fun _ u =>
    Acts h timestamp signer grantor s.toSystem u.toSystem ∧ u.flashLoanOngoing = true)
    (Ends.modify ?_) fun _ => Ends.bind (Q := fun _ u =>
    Acts h timestamp signer grantor s.toSystem u.toSystem ∧ u.flashLoanOngoing = true)
    (hx.keeps fun _ _ hacted hs => ⟨hs.1.trans hacted.acts, hacted.flag.trans hs.2⟩) fun _ =>
    Ends.ite (fun hprev => ?_) fun hprev => ?_
  · rintro u rfl
    subst ht
    exact ⟨.single (.flag true), rfl⟩
  · subst ht
    refine Ends.bind (Q := fun _ => Acted h timestamp signer grantor t.toSystem)
      (Ends.modify fun u hu => ⟨hu.1.tail (.flag false), ?_⟩) fun _ => Ends.pure fun _ hu => hu
    exact (Bool.not_eq_true _ ▸ hprev : t.flashLoanOngoing = false).symm
  · subst ht
    exact Ends.pure fun u hu => ⟨hu.1, hu.2.trans (not_not.mp hprev).symm⟩

/-- A call outside. -/
theorem outside {f : W → Result (W × α)} (hf : ∀ (s : System W) w a, f s.pool.world = .ok (w, a) →
    Act h timestamp signer grantor s { s with pool.world := w }) :
    Performs h timestamp signer grantor (Ctrl.outside f) :=
  fun s => Leaves.foreign fun t w a hst hrun => by
    subst hst
    exact ⟨.single (hf _ w a hrun), rfl⟩

end Performs

/-! ## Pulls -/

/-- `incoming` was pulled since `base`, and that is all that happened. -/
structure Invocation.Pulling (h : ControllerHost W) (base : System W)
    (incoming : List (Address × Int)) (s : Invocation W) : Prop where
  system : s.toSystem = { base with pool.world := s.pool.world }
  pulled : Pulled h.toPoolHost base.pool.world incoming s.pool.world

/-- A computation that ends in acts from where `incoming` was pulled: it hands that to the pool. -/
def Settles (h : ControllerHost W) (timestamp : Nat) (signer grantor : Option Address)
    (incoming : List (Address × Int)) {α : Type} (x : Ctrl W α) : Prop :=
  ∀ base, Leaves (Pulling h base incoming) x fun _ => Acted h timestamp signer grantor base

theorem Pulled.snoc {ph : PoolHost W} {w w1 w2 : W} {incoming : List (Address × Int)}
    {asset sender : Address} {amount received : Int} {e : Error} (hpull : Pulled ph w incoming w1)
    (hrun : ph.transferAmountMeasured w1 asset sender ph.pool amount e = .ok (w2, received)) :
    Pulled ph w (incoming ++ [(asset, received)]) w2 := by
  induction hpull with
  | nil w => exact .cons sender amount e hrun (.nil _)
  | cons sender' amount' e' hpull _ ih => exact .cons sender' amount' e' hpull (ih hrun)

section Pulls

variable {α β : Type} {base : System W} {incoming : List (Address × Int)} {x : Ctrl W α}

theorem Payments.transferAmountMeasured_pulls {asset sender : Address} {amount : Int} {e : Error} :
    Leaves (Pulling h base incoming) (transferAmountMeasured h asset sender h.pool amount e)
      fun received => Pulling h base (incoming ++ [(asset, received)]) :=
  Leaves.foreign fun s w received hs hrun => ⟨by rw [hs.system], hs.pulled.snoc hrun⟩

theorem Invocation.SameSystem.pulling {s s' : Invocation W} (hsame : SameSystem s s')
    (hs : s.Pulling h base incoming) : s'.Pulling h base incoming := by
  have heq : s'.toSystem = s.toSystem := hsame
  exact ⟨by rw [heq]; exact hs.system, by rw [heq]; exact hs.pulled⟩

theorem Leaves.pulling {f : α → Ctrl W β} {R : β → Invocation W → Prop} (hx : ContextOnly x)
    (hf : ∀ a, Leaves (Pulling h base incoming) (f a) R) :
    Leaves (Pulling h base incoming) (x >>= f) R :=
  .step (Within.along hx fun _ _ hsame hs => hsame.pulling hs) fun a _ => hf a

theorem Settles.skip {f : α → Ctrl W β} (hx : ContextOnly x)
    (hf : ∀ a, Settles h timestamp signer grantor incoming (f a)) :
    Settles h timestamp signer grantor incoming (x >>= f) := fun base =>
  .pulling hx fun a => hf a base

theorem Settles.bind {f : α → Ctrl W β} (hx : Settles h timestamp signer grantor incoming x)
    (hf : ∀ a, Performs h timestamp signer grantor (f a)) :
    Settles h timestamp signer grantor incoming (x >>= f) := fun base =>
  Ends.bind (hx base) fun a => (hf a).keeps fun _ _ hst hs =>
    ⟨hs.acts.trans hst.acts, hst.flag.trans hs.flag⟩

/-- **The pool is called** on what was pulled for it. -/
theorem Settles.poolCall {f : PoolCtx W → Result (PoolCtx W × α)} (call : PoolCall)
    (hcall : ∀ pool pool' a, f pool = .ok (pool', a) →
      call.exec h.toPoolHost timestamp pool = .ok pool') :
    Settles h timestamp signer grantor call.incoming (Ctrl.poolCall f) := fun base =>
  Leaves.poolCall fun s pool a hs hrun => by
    have hpool : s.pool = { base.pool with world := s.pool.world } :=
      congrArg System.pool hs.system
    rw [hpool] at hrun
    have hsystem : ({ s with pool } : Invocation W).toSystem = { base with pool } := by
      rw [hs.system]
    have hflag : s.flashLoanOngoing = base.flashLoanOngoing := by rw [hs.system]
    exact ⟨hsystem ▸ .single (.pool call hs.pulled (hcall _ _ _ hrun)), hflag⟩

theorem Settles.performs (hx : Settles h timestamp signer grantor [] x) :
    Performs h timestamp signer grantor x :=
  fun s => (hx s.toSystem).pre fun _ ht => ht ▸ ⟨rfl, .nil _⟩

/-- What follows pulls and settles them. -/
theorem Performs.pulled {f : α → Ctrl W β} (taken : α → List (Address × Int))
    (hx : ∀ base, Leaves (Pulling h base []) x fun a => Pulling h base (taken a))
    (hf : ∀ a, Settles h timestamp signer grantor (taken a) (f a)) :
    Performs h timestamp signer grantor (x >>= f) :=
  fun s => Ends.bind ((hx s.toSystem).pre fun _ ht => ht ▸ ⟨rfl, .nil _⟩) fun a => hf a s.toSystem

end Pulls

/-! ## Payments and accounts -/

theorem TokenHost.transferAmountMeasured_moves {th : TokenHost W} {w w' : W}
    {asset sender recipient : Address} {amount received : Int} {e : Error}
    (hrun : th.transferAmountMeasured w asset sender recipient amount e = .ok (w', received)) :
    th.transfer w asset sender recipient amount = .ok w' := by
  obtain ⟨_, -, hrun⟩ := Fallible.bind_ok hrun
  obtain ⟨w1, hmove, hrun⟩ := Fallible.bind_ok hrun
  obtain ⟨_, -, heq⟩ := Fallible.bind_ok hrun
  cases heq
  exact hmove

namespace Payments

variable {asset sender recipient : Address} {amount : Int}

theorem transferAmountMeasured_performs {e : Error}
    (hsender : sender = h.controller ∨ signer = some sender) :
    Performs h timestamp signer grantor
      (transferAmountMeasured h asset sender recipient amount e) :=
  .outside fun _ _ _ hrun => .pay hsender (TokenHost.transferAmountMeasured_moves hrun)

theorem transfer_performs : Performs h timestamp signer grantor
    (transfer h asset h.controller recipient amount) := by
  refine .outside fun s w _ hrun => ?_
  obtain ⟨w1, hmove, heq⟩ := Fallible.bind_ok hrun
  cases heq
  exact .pay (.inl rfl) hmove

theorem balanceDeltaSince_performs {holder : Address} {before : Int} :
    Performs h timestamp signer grantor (balanceDeltaSince h asset holder before) :=
  .bind Performs.world fun _ => .lift

theorem snapshotBalances_performs {holder : Address} {assets : List Address} :
    Performs h timestamp signer grantor (snapshotBalances h holder assets) :=
  .bind Performs.world fun _ => .pure

theorem refundControllerBalanceDelta_performs {before : Int} {refundTo : Address} :
    Performs h timestamp signer grantor (refundControllerBalanceDelta h asset before refundTo) :=
  .bind balanceDeltaSince_performs fun _ => .ite transfer_performs .pure

end Payments

namespace Account

theorem nftMintCall_performs {owner : Address} :
    Performs h timestamp (some owner) grantor (nftMintCall h owner) := by
  intro s
  refine Ends.get_bind fun t ht => Leaves.assert fun _ =>
    Ends.bind (Q := fun _ u => Acted h timestamp (some owner) grantor s.toSystem u)
      (Ends.modify ?_)
      fun _ => Ends.pure fun _ hu => hu
  rintro u rfl
  subst ht
  exact ⟨.single (.mint owner rfl), rfl⟩

theorem createAccountWith_performs {owner : Address} {spokeId : Nat} {mode : PositionMode}
    {admission : SpokeAdmission} :
    Performs h timestamp (some owner) grantor
      (createAccountWith h owner spokeId mode admission) := by
  have hopen : Performs h timestamp (some owner) grantor (do
      let accountId ← nftMintCall h owner
      let account : Account :=
        { owner, spokeId, mode, supplyPositions := .empty, borrowPositions := .empty }
      modifyStore fun s => { s with metas := s.metas.set accountId { spokeId, mode } }
      return (accountId, account)) :=
    .bind nftMintCall_performs fun _ => .bind (Performs.write fun _ => rfl) fun _ => .pure
  refine .bind .lift fun _ => ?_
  cases admission with
  | activeOnly => exact .bind (Performs.reads Context.activeSpoke_reads) fun _ => hopen
  | allowDeprecated => exact .bind (Performs.reads Context.spokeConfig_reads) fun _ => hopen

theorem loadOrCreateAccount_performs {caller : Address} {accountId spokeId : Nat}
    {mode : PositionMode} {guard : AccountGuard} :
    Performs h timestamp (some caller) grantor
      (loadOrCreateAccount h caller accountId spokeId mode guard) :=
  .ite createAccountWith_performs (.bind (Performs.reads Storage.getAccount_reads) fun _ =>
    .bind (Performs.reads requireGuard_reads) fun _ => .pure)

theorem removeAccountAndBurnNft_performs {accountId : Nat} :
    Performs h timestamp signer grantor (removeAccountAndBurnNft h accountId) :=
  .bind (.modify fun _ => ⟨.single (.forget accountId), rfl⟩) fun _ => .bind .lift fun _ =>
    .bind .get fun _ => .bind .lift fun _ => .modify fun _ => ⟨.single (.burn accountId), rfl⟩

theorem cleanupAccountIfEmpty_performs {a : Account} {accountId : Nat} :
    Performs h timestamp signer grantor (a.cleanupAccountIfEmpty h accountId) :=
  .ite removeAccountAndBurnNft_performs .pure

/-- A list of delegates changes under its account's owner, whose stamp it then bears. -/
theorem setAccountDelegate_performs {caller delegate : Address} {accountId : Nat} {add : Bool} :
    Performs h timestamp signer (some caller)
      (setAccountDelegate h caller accountId delegate add) := by
  have hset : ∀ delegates : List Address, Performs h timestamp signer (some caller)
      (modifyStore fun s =>
        { s with delegates := s.delegates.set accountId ⟨caller, delegates⟩ } : Ctrl W Unit) := by
    refine fun delegates => .modify fun s => ⟨.single (.grant _ accountId rfl
      (fun id hne => SortedMap.get?_set_ne _ _ hne) (.inr fun grant hget => ?_)), rfl⟩
    obtain rfl := Option.some.inj ((SortedMap.get?_set_self ..).symm.trans hget)
    rfl
  have herase : Performs h timestamp signer (some caller)
      (modifyStore fun s => { s with delegates := s.delegates.erase accountId } :
        Ctrl W Unit) := by
    refine .modify fun s => ⟨.single (.grant _ accountId rfl
      (fun id hne => SortedMap.get?_erase_ne _ hne) (.inr fun grant hget => ?_)), rfl⟩
    cases (SortedMap.get?_erase_self ..).symm.trans hget
  refine .bind (Performs.reads requireAccountOwner_reads) fun _ => .bind Performs.store fun s =>
    .ite (.bind .lift fun _ => .ite .pure (.bind .lift fun _ => hset _)) ?_
  split
  · exact .pure
  · exact .ite herase (hset _)

end Account

theorem ControllerStore.setSupplyPositions_delegates {st : ControllerStore} {id : Nat}
    {supply : SortedMap HubAssetKey AccountPosition} :
    (st.setSupplyPositions id supply).delegates = st.delegates := by
  unfold setSupplyPositions
  split <;> rfl

theorem ControllerStore.setDebtPositions_delegates {st : ControllerStore} {id : Nat}
    {debt : SortedMap HubAssetKey DebtPosition} :
    (st.setDebtPositions id debt).delegates = st.delegates := by
  unfold setDebtPositions
  split <;> rfl

theorem Context.persistSpokeUsage_performs :
    Performs h timestamp signer grantor (persistSpokeUsage : Ctrl W Unit) := by
  refine .bind .get fun s => ?_
  split
  · rename_i ctx _
    refine Performs.write fun st => ?_
    obtain ⟨rows, hrows⟩ := ctx.persist_eq st
    rw [hrows]
  · exact .pure

/-! ## Positions -/

namespace Positions

variable {a : Account} {caller recipient payer : Address} {market : HubAssetKey} {amount : Int}

theorem finalizePositionFlow_performs {id : Nat} {sides : PositionSides} {removeIfEmpty : Bool} :
    Performs h timestamp signer grantor (finalizePositionFlow h id a sides removeIfEmpty) := by
  refine .bind Context.persistSpokeUsage_performs fun _ => .bind (Performs.write fun st => ?_)
    fun _ => .bind (Performs.write fun st => ?_) fun _ =>
    .ite Account.cleanupAccountIfEmpty_performs .pure
  · split
    · exact ControllerStore.setSupplyPositions_delegates
    · rfl
  · split
    · exact ControllerStore.setDebtPositions_delegates
    · rfl

theorem applyWithdrawBatch_performs {kind : WithdrawKind} {entries : List PoolWithdrawEntry} :
    Performs h timestamp signer grantor (applyWithdrawBatch h timestamp a recipient kind entries) :=
  .bind (Settles.performs (.poolCall (.withdraw recipient _ entries) fun _ _ _ hrun =>
    congrArg (Prod.fst <$> ·) hrun)) fun _ => .bind (Performs.context
    (forEachLeg_contextOnly fun _ _ => mergeWithdrawLeg_contextOnly)) fun _ => .pure

theorem executeWithdrawal_performs {position : AccountPosition} :
    Performs h timestamp signer grantor
      (executeWithdrawal h timestamp a recipient market amount position) :=
  .bind (Performs.reads enforceSpokeAssetFlags_reads) fun _ =>
    .bind applyWithdrawBatch_performs fun _ => .bind .lift fun _ => .pure

theorem settleWithdraw_performs {aggregated : List HubPayment} :
    Performs h timestamp signer grantor (settleWithdraw h timestamp a recipient aggregated) :=
  .bind (Performs.reads (.foldlM (fun _ _ => withdrawEntry_reads) [])) fun _ =>
    .bind applyWithdrawBatch_performs fun _ => .pure

theorem settleBorrow_performs {aggregated : List HubPayment} :
    Performs h timestamp signer grantor (settleBorrow h timestamp a recipient aggregated) :=
  .bind (Settles.performs (.poolCall (.borrow recipient _) fun _ _ _ hrun =>
    congrArg (Prod.fst <$> ·) hrun)) fun _ => Performs.context
    (forEachLeg_contextOnly fun _ _ => mergeDebtLeg_contextOnly)

/-- What the pool's actions on deliveries say was delivered. -/
def delivered (actions : List PoolAction) : List (Address × Int) :=
  actions.map fun action => (action.hubAsset.asset, action.amount)

theorem processDeposit_performs {aggregated : List HubPayment} :
    Performs h timestamp signer grantor (processDeposit h timestamp caller a aggregated) := by
  refine .bind (Performs.reads validatePositionEntryGates_reads) fun _ =>
    .bind (Performs.reads Context.fetchPrices_reads) fun _ =>
    Performs.pulled delivered (fun base => Ends.foldlM
      (P := fun entries _ => Pulling h base (delivered entries)) (fun entries payment _ _ => ?_) [])
    fun entries => .bind (.poolCall (.supply entries) fun _ _ _ hrun =>
      congrArg (Prod.fst <$> ·) hrun) fun _ => Performs.context
      (forEachLeg_contextOnly fun _ _ => mergeSupplyLeg_contextOnly)
  refine Leaves.pulling (.bind Context.requireSpokeAsset_contextOnly fun _ => .pure) fun _ =>
    Ends.bind Payments.transferAmountMeasured_pulls fun received => Ends.pure fun s hs => ?_
  rw [delivered, List.map_append, List.map_singleton]
  exact hs

theorem applyRepayBatch_settles {actions : List PoolAction} :
    Settles h timestamp signer grantor
      (delivered actions) (applyRepayBatch h timestamp a payer actions) :=
  .bind (.poolCall (.repay payer actions) fun _ _ _ hrun => congrArg (Prod.fst <$> ·) hrun)
    fun _ => .bind (Performs.context
    (forEachLeg_contextOnly fun _ _ => mergeDebtLeg_contextOnly)) fun _ => .pure

theorem settleRepay_performs {aggregated : List HubPayment} :
    Performs h timestamp signer grantor (settleRepay h timestamp a payer aggregated) := by
  refine Performs.pulled delivered (fun base => Ends.foldlM
      (P := fun actions _ => Pulling h base (delivered actions)) (fun actions payment _ _ => ?_) [])
    fun actions => .bind applyRepayBatch_settles fun _ => .pure
  refine Leaves.pulling (.of_reads h 0 enforceSpokeAssetFlags_reads) fun _ =>
    Leaves.unwrap fun position _ => Ends.bind Payments.transferAmountMeasured_pulls
      fun received => Ends.pure fun s hs => ?_
  rw [delivered, List.map_append, List.map_singleton]
  exact hs

theorem repayPrefundedPosition_settles {position : DebtPosition} :
    Settles h timestamp signer grantor [(market.asset, amount)]
      (repayPrefundedPosition h timestamp a payer market position amount) :=
  .skip (.of_reads h timestamp enforceSpokeAssetFlags_reads) fun _ => .bind (fun base =>
    (applyRepayBatch_settles base).pre fun _ hs => hs) fun _ => .bind .lift fun _ => .pure

theorem borrowIntoController_performs {chargeFee : Bool} :
    Performs h timestamp signer grantor
      (borrowIntoController h timestamp a market amount chargeFee) :=
  .bind .lift fun _ => .bind (Performs.reads validatePositionEntryGates_reads) fun _ =>
    .bind Performs.world fun _ => .bind (Performs.withFlashGuard (Settles.performs
      (.poolCall (.createStrategy h.controller _ chargeFee) fun _ _ _ hrun =>
        congrArg (Prod.fst <$> ·) hrun))) fun _ =>
    .bind Payments.balanceDeltaSince_performs fun _ => .bind .lift fun _ => .bind .lift fun _ =>
    .bind (Performs.context mergeDebtLeg_contextOnly) fun _ => .pure

theorem processSupply_performs {accountId spokeId : Nat} {assets : List HubPayment} :
    Performs h timestamp (some caller) grantor
      (processSupply h timestamp caller accountId spokeId assets) :=
  .bind (Performs.reads Risk.requireNotFlashLoaning_reads) fun _ => .bind .lift fun _ =>
    .bind Account.loadOrCreateAccount_performs fun _ =>
    .bind (Performs.reads requireThirdPartyExistingSupply_reads) fun _ =>
    .bind processDeposit_performs fun _ => .bind finalizePositionFlow_performs fun _ => .pure

theorem processWithdraw_performs {accountId : Nat} {withdrawals : List HubPayment}
    {receiver : Option Address} :
    Performs h timestamp signer grantor (processWithdraw h timestamp caller accountId withdrawals
      receiver) :=
  .bind (Performs.reads Risk.requireNotFlashLoaning_reads) fun _ =>
    .bind (Performs.reads Storage.getAccount_reads) fun _ =>
    .bind (Performs.reads Account.requireOwnerOrDelegate_reads) fun _ => .bind .lift fun _ =>
    .bind .lift fun _ => .bind settleWithdraw_performs fun _ =>
    .bind (Performs.reads enforcePostPoolSolvency_reads) fun _ =>
    .bind finalizePositionFlow_performs fun _ => .pure

theorem processBorrow_performs {accountId : Nat} {borrows : List HubPayment}
    {receiver : Option Address} :
    Performs h timestamp signer grantor
      (processBorrow h timestamp caller accountId borrows receiver) :=
  .bind (Performs.reads Risk.requireNotFlashLoaning_reads) fun _ =>
    .bind (Performs.reads Storage.getAccount_reads) fun _ =>
    .bind (Performs.reads Account.requireOwnerOrDelegate_reads) fun _ => .bind .lift fun _ =>
    .bind .lift fun _ => .bind (Performs.reads validatePositionEntryGates_reads) fun _ =>
    .bind settleBorrow_performs fun _ =>
    .bind (Performs.reads enforcePostPoolSolvency_reads) fun _ => finalizePositionFlow_performs

theorem processRepay_performs {accountId : Nat} {payments : List HubPayment} :
    Performs h timestamp signer grantor (processRepay h timestamp caller accountId payments) :=
  .bind (Performs.reads Risk.requireNotFlashLoaning_reads) fun _ => .bind .lift fun _ =>
    .bind (Performs.reads Storage.getAccountBorrowOnly_reads) fun _ =>
    .bind settleRepay_performs fun _ => finalizePositionFlow_performs

end Positions

/-! ## Liquidation -/

namespace Liquidation

open Positions

variable {a : Account} {liquidator : Address}

theorem applyLiquidationRepayments_performs {repaid : List RepayEntry}
    {offered : Option (List HubPayment)} :
    Performs h timestamp signer grantor
      (applyLiquidationRepayments h timestamp liquidator a repaid offered) := by
  refine Performs.pulled (fun acc => delivered acc.actions) (fun base => Ends.foldlM
      (P := fun (acc : PullAcc) _ => Pulling h base (delivered acc.actions))
      (fun acc entry _ _ => ?_) ⟨[], Wad.zero⟩)
    fun acc => .bind applyRepayBatch_settles fun _ => .pure
  refine Leaves.pulling (.of_reads h 0 enforceSpokeAssetFlags_reads) fun _ => Leaves.result
    fun pull _ => Ends.bind Payments.transferAmountMeasured_pulls fun received =>
    Leaves.result fun _ _ => Leaves.result fun _ _ => Leaves.result fun _ _ =>
    Ends.pure fun s hs => ?_
  rw [delivered, List.map_append, List.map_singleton]
  exact hs

theorem poolSeizePositions_performs {entries : List PoolSeizeEntry} :
    Performs h timestamp signer grantor (poolSeizePositions timestamp entries : Ctrl W Unit) :=
  Settles.performs (.poolCall (.seizePositions entries) fun _ _ _ hrun => PoolCtx.unit_ok hrun)

theorem executeBadDebtCleanup_performs {id : Nat} :
    Performs h timestamp signer grantor (executeBadDebtCleanup h timestamp id a) := by
  have hexits : ∀ {side : UsageSide} {market : HubAssetKey} {shares : Int}
      {entries : List PoolSeizeEntry}, Performs h timestamp signer grantor (do
        Context.applySpokeExit a.spokeId side market shares
        return entries : Ctrl W (List PoolSeizeEntry)) :=
    .bind (Performs.context Context.applySpokeExit_contextOnly) fun _ => .pure
  exact .bind (.foldlM (fun _ _ => hexits) []) fun _ => .bind (.foldlM (fun _ _ => hexits) _)
    fun _ => .bind poolSeizePositions_performs fun _ =>
    .bind Context.persistSpokeUsage_performs fun _ => Account.removeAccountAndBurnNft_performs

theorem resolveSeizeReceiver_performs {id : Nat} {mode : SeizeMode} :
    Performs h timestamp (some liquidator) grantor
      (resolveSeizeReceiver h liquidator id a mode) := by
  cases mode with
  | transfer => exact .pure
  | credit requested =>
    exact .ite (.bind Account.createAccountWith_performs fun _ => .pure)
      (.bind (Performs.reads loadCreditReceiver_reads) fun _ =>
        .bind (Performs.reads Account.requireOwnerOrDelegate_reads) fun _ => .pure)

theorem takeSeizures_performs {receiver : Option (Nat × Account)} {fresh : Bool}
    {seized : List SeizeEntry} :
    Performs h timestamp signer grantor
      (takeSeizures h timestamp liquidator a receiver fresh seized) := by
  cases receiver with
  | none =>
    exact .bind (.bind (Performs.reads (.foldlM (fun _ _ => seizureEntry_reads) [])) fun _ =>
      .bind applyWithdrawBatch_performs fun _ => .pure) fun _ => .pure
  | some receiver =>
    exact .bind (Performs.reads requireCreditPositionLimit_reads) fun _ =>
      .bind (.bind (Performs.context (.foldlM (fun _ _ => creditSeizure_contextOnly h) _)) fun _ =>
        .ite (.bind poolSeizePositions_performs fun _ => .pure) .pure) fun _ => .pure

theorem finalizeReceiver_performs {receiver : Option (Nat × Account)} {seized : List SeizeEntry} :
    Performs h timestamp signer grantor (finalizeReceiver h receiver seized) := by
  cases receiver with
  | none => exact .pure
  | some receiver =>
    exact .bind (Performs.reads recordShareCreditUpdates_reads) fun _ =>
      finalizePositionFlow_performs

theorem processLiquidation_performs {id : Nat} {payments : List HubPayment} {mode : SeizeMode} :
    Performs h timestamp (some liquidator) grantor
      (processLiquidation h timestamp liquidator id payments mode) :=
  .bind (Performs.reads Risk.requireNotFlashLoaning_reads) fun _ =>
    .bind (Performs.reads Storage.getAccount_reads) fun _ => .bind .lift fun _ =>
    .bind resolveSeizeReceiver_performs fun _ =>
    .bind (Performs.reads buildLiquidationPlan_reads) fun _ => .bind .lift fun _ =>
    .bind .lift fun _ => .bind applyLiquidationRepayments_performs fun _ => .bind .lift fun _ =>
    .bind .lift fun _ => .bind takeSeizures_performs fun _ =>
    .bind (Performs.reads Risk.calculateAccountRiskTotals_reads) fun _ =>
    .bind finalizePositionFlow_performs fun _ => .bind finalizeReceiver_performs fun _ =>
    .bind (.ite Account.cleanupAccountIfEmpty_performs
      (.ite executeBadDebtCleanup_performs .pure)) fun _ => .pure

theorem socializeBadDebt_performs {id : Nat} {gate : BadDebtGate} :
    Performs h timestamp signer grantor (socializeBadDebt h timestamp id gate) :=
  .bind (Performs.reads Storage.getAccount_reads) fun _ => .bind .lift fun _ =>
    .bind (Performs.reads Risk.calculateAccountRiskTotals_reads) fun _ => .bind .lift fun _ =>
    executeBadDebtCleanup_performs

end Liquidation

/-! ## Strategies -/

namespace Strategies

open Positions

variable {a : Account} {caller : Address} {market debt : HubAssetKey} {amount : Int}
  {swap : StrategySwap}

theorem strategyFinalize_performs {id : Nat} :
    Performs h timestamp signer grantor (strategyFinalize h timestamp id a) :=
  .bind (Performs.reads enforcePostPoolSolvency_reads) fun _ =>
    .bind finalizePositionFlow_performs fun _ => .pure

theorem swapTokens_performs {refundTo tokenIn tokenOut : Address} :
    Performs h timestamp signer grantor (swapTokens h refundTo tokenIn amount tokenOut swap) := by
  have hout : ∀ before,
      Performs h timestamp signer grantor (verifyRouterOutput h tokenOut before) :=
    fun _ => .bind Payments.balanceDeltaSince_performs fun _ => .bind .lift fun _ => .pure
  refine .bind .lift fun _ => .bind .lift fun _ => .bind Performs.store fun _ =>
    .bind .lift fun _ => .bind Performs.world fun _ => .bind Performs.world fun _ =>
    .bind (Performs.withFlashGuard (Performs.outside fun s w _ hrun => ?_)) fun _ =>
    .bind Performs.world fun _ => .bind .lift fun _ => .bind .lift fun _ => .bind .lift fun _ =>
    .bind .lift fun _ => .ite (.bind Payments.transfer_performs fun _ => hout _) (hout _)
  obtain ⟨w1, hroute, heq⟩ := Fallible.bind_ok hrun
  cases heq
  exact .route hroute

theorem swapTokensOrPassthrough_performs {refundTo tokenIn tokenOut : Address} :
    Performs h timestamp signer grantor
      (swapTokensOrPassthrough h refundTo tokenIn amount tokenOut swap) :=
  .ite (.bind .lift fun _ => .pure) swapTokens_performs

theorem repayDebtFromController_performs {available : Int} {position : DebtPosition} :
    Performs h timestamp signer grantor
      (repayDebtFromController h timestamp a caller debt available position) :=
  Performs.pulled (fun received => [(debt.asset, received)])
    (fun _ => Payments.transferAmountMeasured_pulls) fun _ =>
    .skip (.bind .get fun _ => .pure) fun _ => .bind repayPrefundedPosition_settles fun _ =>
    .bind Payments.refundControllerBalanceDelta_performs fun _ => .pure

theorem withdrawAndSwapFromSupply_performs {tokenOut : Address} :
    Performs h timestamp signer grantor
      (withdrawAndSwapFromSupply h timestamp a caller market amount tokenOut swap) :=
  .bind .lift fun _ => .bind (.bind Performs.world fun _ =>
    .bind (Performs.withFlashGuard executeWithdrawal_performs) fun _ =>
    .bind Payments.balanceDeltaSince_performs fun _ => .pure) fun _ =>
    .bind swapTokensOrPassthrough_performs fun _ => .pure

theorem executeWithdrawAll_performs {destination : Address} :
    Performs h timestamp signer grantor (executeWithdrawAll h timestamp a destination market) := by
  refine .bind (.ite .pure (.bind (Settles.performs (.poolCall (.withdraw destination false _)
    fun _ _ _ hrun => congrArg (Prod.fst <$> ·) hrun)) fun _ => .pure)) fun _ =>
    .foldlM (fun b key => ?_) a
  unfold withdrawAllOf
  split
  · exact .pure
  · exact .bind executeWithdrawal_performs fun _ => .pure

theorem netSettleCollateralAgainstDebt_performs :
    Performs h timestamp signer grantor
      (netSettleCollateralAgainstDebt h timestamp a market amount) :=
  .bind (Performs.reads enforceSpokeAssetFlags_reads) fun _ => .bind .lift fun _ =>
    .bind .lift fun _ => .bind (Settles.performs (.poolCall (.netSettle _)
      fun _ _ _ hrun => congrArg (Prod.fst <$> ·) hrun)) fun _ =>
    .bind (Performs.context mergeWithdrawLeg_contextOnly) fun _ =>
    Performs.context mergeDebtLeg_contextOnly

theorem collectInitialMultiplyPayment_performs {payment : Option HubPayment}
    {convert : Option StrategySwap} :
    Performs h timestamp (some caller) grantor
      (collectInitialMultiplyPayment h caller market debt payment convert) := by
  cases payment with
  | none => exact .pure
  | some payment =>
    exact .bind .lift fun _ => .bind (Payments.transferAmountMeasured_performs (.inr rfl)) fun _ =>
      .ite .pure (.ite .pure (.bind .lift fun _ => .bind swapTokens_performs fun _ => .pure))

theorem processMultiply_performs {p : MultiplyParams} :
    Performs h timestamp (some caller) grantor (processMultiply h timestamp caller p) :=
  .bind (Performs.reads Risk.requireNotFlashLoaning_reads) fun _ => .bind .lift fun _ =>
    .bind Account.loadOrCreateAccount_performs fun _ =>
    .bind (Performs.reads requireCanSupply_reads) fun _ =>
    .bind (Performs.reads prefetchStrategyPrices_reads) fun _ =>
    .bind collectInitialMultiplyPayment_performs fun _ =>
    .bind borrowIntoController_performs fun _ => .bind .lift fun _ =>
    .bind swapTokensOrPassthrough_performs fun _ => .bind .lift fun _ =>
    .bind processDeposit_performs fun _ => .bind strategyFinalize_performs fun _ => .pure

theorem processSwapDebt_performs {p : SwapDebtParams} :
    Performs h timestamp signer grantor (processSwapDebt h timestamp caller p) :=
  .bind (Performs.reads Risk.requireNotFlashLoaning_reads) fun _ => .bind .lift fun _ =>
    .bind (Performs.reads Context.requireHubActive_reads) fun _ => .bind .lift fun _ =>
    .bind (Performs.reads Storage.getAccount_reads) fun _ =>
    .bind (Performs.reads Account.requireOwnerOrDelegate_reads) fun _ => .bind .lift fun _ =>
    .bind (Performs.reads prefetchStrategyPrices_reads) fun _ =>
    .bind borrowIntoController_performs fun _ => .bind swapTokensOrPassthrough_performs fun _ =>
    .bind repayDebtFromController_performs fun _ => .bind strategyFinalize_performs fun _ => .pure

theorem processSwapCollateral_performs {p : SwapCollateralParams} :
    Performs h timestamp signer grantor (processSwapCollateral h timestamp caller p) :=
  .bind (Performs.reads Risk.requireNotFlashLoaning_reads) fun _ => .bind .lift fun _ =>
    .bind (Performs.reads Context.requireHubActive_reads) fun _ => .bind .lift fun _ =>
    .bind (Performs.reads Storage.getAccount_reads) fun _ =>
    .bind (Performs.reads Account.requireOwnerOrDelegate_reads) fun _ =>
    .bind (Performs.reads requireCanSupply_reads) fun _ =>
    .bind (Performs.reads prefetchStrategyPrices_reads) fun _ =>
    .bind withdrawAndSwapFromSupply_performs fun _ => .bind processDeposit_performs fun _ =>
    .bind strategyFinalize_performs fun _ => .pure

theorem processRepayDebtWithCollateral_performs {p : RepayWithCollateralParams} :
    Performs h timestamp signer grantor (processRepayDebtWithCollateral h timestamp caller p) :=
  .bind (Performs.reads Risk.requireNotFlashLoaning_reads) fun _ => .bind .lift fun _ =>
    .bind (Performs.reads Context.requireHubActive_reads) fun _ =>
    .bind (Performs.reads Context.requireHubActive_reads) fun _ =>
    .bind (Performs.reads Storage.getAccount_reads) fun _ =>
    .bind (Performs.reads Account.requireOwnerOrDelegate_reads) fun _ =>
    .bind (Performs.reads prefetchStrategyPrices_reads) fun _ =>
    .bind (.ite (.bind .lift fun _ => netSettleCollateralAgainstDebt_performs)
      (.bind .lift fun _ => .bind withdrawAndSwapFromSupply_performs fun _ =>
        repayDebtFromController_performs)) fun _ =>
    .bind (.ite (.bind .lift fun _ => executeWithdrawAll_performs) .pure) fun _ =>
    .bind strategyFinalize_performs fun _ => .pure

theorem requireWasmReceiver_performs {receiver : Address} :
    Performs h timestamp signer grantor (requireWasmReceiver h receiver) :=
  .bind Performs.world fun _ => .lift

theorem processFlashLoan_performs {receiver : Address} {data : List UInt8} :
    Performs h timestamp signer grantor
      (processFlashLoan h timestamp caller market amount receiver data) :=
  .bind (Performs.reads Risk.requireNotFlashLoaning_reads) fun _ => .bind .lift fun _ =>
    .bind (Performs.reads Context.requireHubActive_reads) fun _ =>
    .bind requireWasmReceiver_performs fun _ => .bind (Performs.withFlashGuard (Settles.performs
      (.poolCall (.flashLoan market caller receiver amount data)
        fun _ _ _ hrun => congrArg (Prod.fst <$> ·) hrun))) fun _ => .pure

theorem fundAndCall_performs {id : Nat} {p : FlashPositionParams} :
    Performs h timestamp signer grantor (fundAndCall h timestamp caller id a p) := by
  refine .bind (.bind Performs.world fun _ => .bind borrowIntoController_performs fun _ =>
    .bind Payments.balanceDeltaSince_performs fun _ => .bind .lift fun _ => .bind .lift fun _ =>
    .bind (Payments.transferAmountMeasured_performs (.inl rfl)) fun _ => .bind .lift fun _ => .pure)
    fun _ => .bind Payments.snapshotBalances_performs fun _ =>
    .bind Payments.snapshotBalances_performs fun _ =>
    .bind (Performs.outside fun s w _ hrun => ?_) fun _ => .pure
  obtain ⟨w1, hreceive, heq⟩ := Fallible.bind_ok hrun
  cases heq
  exact .receive hreceive

theorem processFlashPosition_performs {p : FlashPositionParams} :
    Performs h timestamp (some caller) grantor (processFlashPosition h timestamp caller p) :=
  .bind (Performs.reads Risk.requireNotFlashLoaning_reads) fun _ => .bind .lift fun _ =>
    .bind (Performs.reads Context.requireHubActive_reads) fun _ => .bind .lift fun _ =>
    .bind requireWasmReceiver_performs fun _ => .bind .lift fun _ =>
    .bind (Performs.reads Context.cachedPoolSyncData_reads) fun _ => .bind .lift fun _ =>
    .bind Account.loadOrCreateAccount_performs fun _ =>
    .bind (.bind .lift fun _ => .bind Performs.store fun _ => .bind .lift fun _ =>
      .bind (.foldlM (fun _ _ => .bind .lift fun _ => .bind .lift fun _ =>
        .bind (Performs.reads requireCanSupply_reads) fun _ => .pure) _) fun _ =>
      .bind .lift fun _ => Performs.reads validatePositionEntryGates_reads) fun _ =>
    .bind (Performs.reads validateRefundAssets_reads) fun _ =>
    .bind (Performs.reads prefetchStrategyPrices_reads) fun _ =>
    .bind (Performs.withFlashGuard fundAndCall_performs) fun _ =>
    .bind (.bind (.foldlM (fun _ _ => .bind .lift fun _ =>
      .bind Payments.balanceDeltaSince_performs fun _ => .bind .lift fun _ => .pure) _) fun _ =>
      .bind .lift fun _ => .pure) fun _ => .bind processDeposit_performs fun _ =>
    .bind (.foldlM (fun _ _ => .bind .lift fun _ =>
      Payments.refundControllerBalanceDelta_performs) ()) fun _ =>
    .bind (.bind .lift fun _ => .bind .lift fun _ => .lift) fun _ =>
    .bind strategyFinalize_performs fun _ =>
    .bind (.bind .lift fun _ => .bind .lift fun _ => .lift) fun _ => .pure

theorem guardedSubmit_performs {blendPool holder : Address} {requests : List BlendRequest} :
    Performs h timestamp signer grantor (guardedSubmit h blendPool holder requests) := by
  refine Performs.withFlashGuard (Performs.outside fun s w _ hrun => ?_)
  obtain ⟨w1, hsubmit, heq⟩ := Fallible.bind_ok hrun
  cases heq
  exact .blend hsubmit

theorem executeMigrationDebtLeg_performs {p : MigrateBlendParams} :
    Performs h timestamp signer grantor (executeMigrationDebtLeg h timestamp caller p a) :=
  .ite .pure (.bind Payments.snapshotBalances_performs fun _ =>
    .bind (.foldlM (fun _ _ => .bind .lift fun _ => .bind borrowIntoController_performs fun _ =>
      .pure) _) fun _ => .bind guardedSubmit_performs fun _ =>
    .foldlM (fun _ _ => .bind Payments.balanceDeltaSince_performs fun _ =>
      .ite (.bind .lift fun _ => repayDebtFromController_performs) .pure) _)

theorem sweepAndDeposit_performs {p : MigrateBlendParams} :
    Performs h timestamp signer grantor (sweepAndDeposit h timestamp caller p a) :=
  .ite (.bind Payments.snapshotBalances_performs fun _ => .bind guardedSubmit_performs fun _ =>
    .bind (.foldlM (fun _ _ => .bind Payments.balanceDeltaSince_performs fun _ => .pure) _)
      fun _ => .ite processDeposit_performs .pure) .pure

theorem processMigrateBlend_performs {p : MigrateBlendParams} :
    Performs h timestamp (some caller) grantor (processMigrateBlend h timestamp caller p) :=
  .bind (Performs.reads Risk.requireNotFlashLoaning_reads) fun _ =>
    .bind (Performs.reads Context.requireHubActive_reads) fun _ =>
    .bind (.bind .lift fun _ => .bind Performs.store fun _ => .lift) fun _ => .bind .lift fun _ =>
    .bind Account.loadOrCreateAccount_performs fun _ =>
    .bind (Performs.reads prefetchStrategyPrices_reads) fun _ =>
    .bind (Performs.reads (.foldlM (fun _ _ => requireCanSupply_reads) ())) fun _ =>
    .bind executeMigrationDebtLeg_performs fun _ => .bind sweepAndDeposit_performs fun _ =>
    .bind strategyFinalize_performs fun _ => .pure

end Strategies

/-! ## Markets and settings -/

theorem Risk.updateAccountThreshold_performs {hasRisks : Bool} {ids : List Nat} :
    Performs h timestamp signer grantor (updateAccountThreshold h timestamp hasRisks ids) := by
  have hsync : ∀ id scope,
      Performs h timestamp signer grantor (syncAccountThresholds h timestamp id scope) := by
    refine fun id scope => .bind Performs.store fun st => ?_
    split
    · exact .pure
    refine .ite .pure (.bind (Performs.reads Storage.tryAccountOwner_reads) fun owner => ?_)
    split
    · exact .pure
    refine .bind (Performs.reads (.foldlM (fun _ _ => syncThresholdOf_reads) _)) fun _ =>
      .bind (Performs.write fun st => ?_) fun _ =>
      .ite (.bind (Performs.reads calculateAccountRiskTotals_reads) fun _ => .lift) .pure
    split
    · exact ControllerStore.setSupplyPositions_delegates
    · rfl
  have hreset : Performs h timestamp signer grantor (Context.resetSpokeContext : Ctrl W Unit) :=
    Performs.context (.modify fun _ => rfl)
  exact .bind (Performs.reads requireNotFlashLoaning_reads) fun _ =>
    .foldlM (fun _ _ => .bind hreset fun _ => hsync _ _) ()

namespace Markets

theorem poolUpdateIndexes_performs {hubAssets : List HubAssetKey} :
    Performs h timestamp signer grantor (poolUpdateIndexes timestamp hubAssets : Ctrl W Unit) :=
  Settles.performs (.poolCall (.updateIndexes hubAssets) fun _ _ _ hrun => PoolCtx.unit_ok hrun)

theorem claimRevenueForAsset_performs {market : HubAssetKey} :
    Performs h timestamp signer grantor (claimRevenueForAsset h timestamp market) :=
  .bind Performs.store fun _ => .bind .lift fun _ => .bind Performs.world fun _ =>
    .bind (Settles.performs (.poolCall (.claimRevenue market) fun _ _ _ hrun =>
      congrArg (Prod.fst <$> ·) hrun)) fun _ => .bind Payments.balanceDeltaSince_performs fun _ =>
    .ite (.bind (Payments.transferAmountMeasured_performs (.inl rfl)) fun _ => .pure) .pure

theorem recapitalize_performs {payer : Address} {market : HubAssetKey} {amount : Int} :
    Performs h timestamp signer grantor (recapitalize h timestamp payer market amount) :=
  .bind (Performs.reads Risk.requireNotFlashLoaning_reads) fun _ => .bind .lift fun _ =>
    Performs.pulled (fun received => [(market.asset, received)])
    (fun _ => Payments.transferAmountMeasured_pulls) fun received =>
    .poolCall (.recapitalize market payer received) fun _ _ _ hrun =>
      congrArg (Prod.fst <$> ·) hrun

theorem createLiquidityPool_performs {hubId : Nat} {asset : Address} {params : MarketParams} :
    Performs h timestamp signer grantor
      (createLiquidityPool timestamp hubId asset params : Ctrl W Unit) :=
  .bind (Performs.reads Context.requireHubActive_reads) fun _ => .bind .lift fun _ =>
    Settles.performs (.poolCall (.createMarket hubId params) fun _ _ _ hrun =>
      PoolCtx.unit_ok hrun)

theorem upgradeLiquidityPoolParams_performs {market : HubAssetKey} {params : InterestRateModel} :
    Performs h timestamp signer grantor
      (upgradeLiquidityPoolParams timestamp market params : Ctrl W Unit) :=
  .bind poolUpdateIndexes_performs fun _ => Settles.performs
    (.poolCall (.updateParams market params) fun _ _ _ hrun => PoolCtx.unit_ok hrun)

end Markets

namespace Config

theorem bumpSpokeFlagsEpoch_performs {key : SpokeAssetKey} :
    Performs h timestamp signer grantor (bumpSpokeFlagsEpoch key : Ctrl W Unit) :=
  .bind Performs.store fun _ => .bind .lift fun _ => Performs.write fun _ => rfl

theorem upsertSpokeAsset_performs {args : SpokeAssetArgs} {mutation : SpokeAssetMutation} :
    Performs h timestamp signer grantor (upsertSpokeAsset args mutation : Ctrl W Unit) := by
  have hreg : Performs h timestamp signer grantor (requireRegistration args
      ⟨args.spokeId, args.hubId, args.asset⟩ mutation : Ctrl W (Option SpokeAssetConfig)) := by
    refine .bind Performs.store fun _ => .bind .lift fun _ => ?_
    cases mutation with
    | add => exact .bind .lift fun _ => .bind .lift fun _ => .pure
    | edit => exact .bind .lift fun _ => .bind .lift fun _ => .pure
  refine .bind .lift fun _ => ?_
  generalize validateLiquidationFees args.liquidationFees = fees
  exact .bind .lift fun _ => .bind .lift fun _ => .bind hreg fun _ => .bind .get fun _ =>
    .bind .lift fun _ => .bind .lift fun _ => .bind .lift fun _ => .bind .lift fun _ =>
    .bind (Performs.write fun _ => rfl) fun _ => .ite bumpSpokeFlagsEpoch_performs .pure

end Config

/-! ## Calls -/

open Positions Liquidation Strategies Governance

/-- Whose signature a call needs. -/
def ControllerCall.signatory : ControllerCall → Option Address
  | supply caller _ _ _ | borrow caller _ _ _ | withdraw caller _ _ _ | repay caller _ _
  | liquidate caller _ _ _ | flashLoan caller _ _ _ _ | flashPosition caller _ | multiply caller _
  | swapDebt caller _ | swapCollateral caller _ | repayDebtWithCollateral caller _
  | migrateFromBlend caller _ | recapitalize caller _ _ | addDelegate caller _ _
  | removeDelegate caller _ _ => some caller
  | _ => none

/-- Whose grants a call changes. -/
def ControllerCall.granting : ControllerCall → Option Address
  | addDelegate caller _ _ | removeDelegate caller _ _ => some caller
  | _ => none

theorem Governance.whenNotPaused_performs {α : Type} {x : Ctrl W α}
    (hx : Performs h timestamp signer grantor x) :
    Performs h timestamp signer grantor (whenNotPaused x) :=
  .bind Performs.store fun _ => .bind .lift fun _ => hx

/-- **Every call performs.** -/
theorem ControllerCall.body_performs (call : ControllerCall) :
    Performs h timestamp call.signatory call.granting (call.body h timestamp) := by
  cases call with
  | supply => exact whenNotPaused_performs (.bind processSupply_performs fun _ => .pure)
  | borrow => exact whenNotPaused_performs processBorrow_performs
  | withdraw => exact .bind processWithdraw_performs fun _ => .pure
  | repay => exact processRepay_performs
  | liquidate => exact .bind processLiquidation_performs fun _ => .pure
  | cleanBadDebt | forceSocializeBadDebt =>
    exact .bind (Performs.reads Risk.requireNotFlashLoaning_reads) fun _ =>
      socializeBadDebt_performs
  | flashLoan => exact whenNotPaused_performs processFlashLoan_performs
  | flashPosition =>
    exact whenNotPaused_performs (.bind processFlashPosition_performs fun _ => .pure)
  | multiply => exact whenNotPaused_performs (.bind processMultiply_performs fun _ => .pure)
  | swapDebt => exact whenNotPaused_performs processSwapDebt_performs
  | swapCollateral => exact whenNotPaused_performs processSwapCollateral_performs
  | repayDebtWithCollateral => exact whenNotPaused_performs processRepayDebtWithCollateral_performs
  | migrateFromBlend =>
    exact whenNotPaused_performs (.bind processMigrateBlend_performs fun _ => .pure)
  | updateIndexes =>
    exact whenNotPaused_performs (.bind (Performs.reads Risk.requireNotFlashLoaning_reads) fun _ =>
      Markets.poolUpdateIndexes_performs)
  | claimRevenue =>
    exact whenNotPaused_performs (.bind (.bind (Performs.reads Risk.requireNotFlashLoaning_reads)
      fun _ => .foldlM (fun _ _ => .bind Markets.claimRevenueForAsset_performs fun _ => .pure) [])
      fun _ => .pure)
  | updateAccountThreshold => exact whenNotPaused_performs Risk.updateAccountThreshold_performs
  | recapitalize => exact .bind Markets.recapitalize_performs fun _ => .pure
  | addDelegate => exact whenNotPaused_performs Account.setAccountDelegate_performs
  | removeDelegate => exact Account.setAccountDelegate_performs
  | createLiquidityPool => exact Markets.createLiquidityPool_performs
  | upgradeLiquidityPoolParams => exact Markets.upgradeLiquidityPoolParams_performs
  | setSwapAggregator | setPriceAggregator | setAccumulator | setPositionManager
  | setBlendPoolApproval =>
    unfold ControllerCall.body
    exact Performs.write fun _ => rfl
  | setPositionLimits | setMinBorrowCollateralUsd =>
    exact .bind .lift fun _ => Performs.write fun _ => rfl
  | createHub | addSpoke =>
    exact .bind (.bind Performs.store fun _ => .bind .lift fun _ =>
      .bind (Performs.write fun _ => rfl) fun _ => .pure) fun _ => .pure
  | removeSpoke =>
    exact .bind Performs.store fun _ => .bind .lift fun _ => .bind .lift fun _ =>
      Performs.write fun _ => rfl
  | setSpokeLiquidationCurve =>
    exact .bind .lift fun _ => .bind Performs.store fun _ => .bind .lift fun _ =>
      Performs.write fun _ => rfl
  | addAssetToSpoke | editAssetInSpoke => exact Config.upsertSpokeAsset_performs
  | setSpokeAssetFlags =>
    exact .bind Performs.store fun _ => .bind .lift fun _ => .bind .lift fun _ =>
      .bind .lift fun _ => .bind (Performs.write fun _ => rfl) fun _ =>
      Config.bumpSpokeFlagsEpoch_performs
  | relaxSpokeAssetFlags =>
    exact .bind Performs.store fun _ => .bind .lift fun _ => .bind .lift fun _ =>
      .bind (Performs.write fun _ => rfl) fun _ => Config.bumpSpokeFlagsEpoch_performs
  | removeAssetFromSpoke =>
    exact .bind Performs.store fun _ => .bind .lift fun _ => .bind .lift fun _ =>
      Performs.write fun _ => rfl
  | pause | unpause =>
    exact .bind Performs.store fun _ => .bind .lift fun _ => Performs.write fun _ => rfl

theorem ControllerCall.exec_acts {call : ControllerCall} {s s' : System W}
    (hexec : call.exec h timestamp s = .ok s') :
    Acts h timestamp call.signatory call.granting s s' := by
  unfold ControllerCall.exec at hexec
  split at hexec
  · rename_i u t hrun
    cases hexec
    exact (call.body_performs.ok hrun).acts
  · cases hexec

end Lending
