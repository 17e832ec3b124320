import LendingXlm.Controller.Gates
import LendingXlm.Controller.Configuration
import LendingXlm.Controller.Conservation
import LendingXlm.Controller.Delegates
import LendingXlm.Controller.Liquidation.Settlement
import LendingXlm.Pool.Custody

/-!
# Strategy escrow

A strategy routes tokens through the controller's own balance: it borrows or withdraws into it,
lets the router, Blend or a receiver pay into it, and passes on what it measured. `Escrowed`
says what the controller has to hold of each token while it does.

* `TillOnly`: steps that move nothing of the controller's;
* `Earmarks`: steps that move what is held by a known amount, such as `swapTokens_earmarks`,
  `repayDebtFromController_earmarks` and `processDeposit_earmarks`;
* `strategies_spend_nothing`: a strategy uses up all it brings in, and nothing else.
-/

namespace Lending

open Transaction Ctrl Invocation PoolCtx

variable {W : Type} {h : ControllerHost W} {timestamp : Nat} {tight : Prop}

/-! ## Balances of the controller -/

/-- `y` covers `x`; where `tight`, it is `x`. -/
structure Covers (tight : Prop) (x y : Int) : Prop where
  le : x ≤ y
  eq : tight → x = y

namespace Covers

variable {x y z : Int}

theorem refl : Covers tight x x := ⟨le_rfl, fun _ => rfl⟩

theorem of_eq (hxy : x = y) : Covers tight x y := ⟨hxy.le, fun _ => hxy⟩

theorem trans (hxy : Covers tight x y) (hyz : Covers tight y z) : Covers tight x z :=
  ⟨hxy.le.trans hyz.le, fun ht => (hxy.eq ht).trans (hyz.eq ht)⟩

theorem add (hxy : Covers tight x y) (d : Int) : Covers tight (x + d) (y + d) :=
  ⟨add_le_add_left hxy.le d, fun ht => by rw [hxy.eq ht]⟩

end Covers

/-- What the controller holds of a token. -/
def ControllerHost.till (h : ControllerHost W) (w : W) (token : Address) : Int :=
  h.balance w token h.controller

/-- Tokens that deliver what is sent, and ownership records that move none. -/
structure ControllerHost.Settling (h : ControllerHost W) : Prop where
  delivers : h.Delivers
  apart : h.controller ≠ h.pool
  assign : ∀ w id owner, h.till (h.nftAssign w id owner) = h.till w
  release : ∀ w id, h.till (h.nftRelease w id) = h.till w

/-- The controller holds what is due, or more of it. -/
structure Invocation.Escrowed (h : ControllerHost W) (tight : Prop) (due : Address → Int)
    (s : Invocation W) : Prop where
  keyed : s.pool.Keyed
  till : ∀ token, Covers tight (due token) (h.till s.pool.world token)

/-- The controller holds of each token what it held. -/
def Invocation.SameTill (h : ControllerHost W) (s s' : Invocation W) : Prop :=
  s.pool.Keyed → s'.pool.Keyed ∧ h.till s'.pool.world = h.till s.pool.world

instance : Std.Refl (SameTill h) where
  refl _ := fun hk => ⟨hk, rfl⟩

instance : IsTrans (Invocation W) (SameTill h) where
  trans _ _ _ hst htu := fun hk =>
    ⟨(htu (hst hk).1).1, (htu (hst hk).1).2.trans (hst hk).2⟩

variable {due : Address → Int} {α β : Type}

theorem Invocation.SameTill.of_pool {s s' : Invocation W} (hp : s'.pool = s.pool) :
    SameTill h s s' := fun hk => ⟨hp ▸ hk, by rw [hp]⟩

theorem Invocation.SameTill.escrowed {s s' : Invocation W} (hs : SameTill h s s')
    (he : s.Escrowed h tight due) : s'.Escrowed h tight due := by
  obtain ⟨hk, htill⟩ := hs he.keyed
  exact ⟨hk, fun token => htill ▸ he.till token⟩

namespace Invocation.Escrowed

variable {s : Invocation W}

theorem loosen (he : s.Escrowed h True due) : s.Escrowed h tight due :=
  ⟨he.keyed, fun token => .of_eq ((he.till token).eq trivial)⟩

/-- Less may be due. -/
theorem mono {due' : Address → Int} (he : s.Escrowed h tight due')
    (hdue : ∀ token, Covers tight (due token) (due' token)) : s.Escrowed h tight due :=
  ⟨he.keyed, fun token => (hdue token).trans (he.till token)⟩

theorem congr {due' : Address → Int} (he : s.Escrowed h tight due) (hdue : due = due') :
    s.Escrowed h tight due' := hdue ▸ he

/-- What is held, exactly. -/
theorem exactly (he : s.Escrowed h tight due) :
    s.Escrowed h True (h.till s.pool.world) ∧
      ∀ token, Covers tight (due token) (h.till s.pool.world token) :=
  ⟨⟨he.keyed, fun _ => .refl⟩, he.till⟩

theorem till_eq (he : s.Escrowed h True due) : h.till s.pool.world = due :=
  funext fun token => ((he.till token).eq trivial).symm

end Invocation.Escrowed

/-- A computation that moves nothing of the controller's. -/
abbrev TillOnly (h : ControllerHost W) (x : Ctrl W α) : Prop := Along (SameTill h) x

/-- A computation that changes what has to be held by what its answer says. -/
def Earmarks (h : ControllerHost W) (tight : Prop) (x : Ctrl W α) (δ : α → Address → Int) : Prop :=
  ∀ due, Leaves (Escrowed h tight due) x fun a => Escrowed h tight (due + δ a)

namespace TillOnly

theorem of_reads {t : Nat} {x : Ctrl W α} (hx : ReadsOnly h t x) : TillOnly h x :=
  hx.mono fun _ _ hr => .of_pool (congrArg System.pool hr.system)

theorem of_context {x : Ctrl W α} (hx : ContextOnly x) : TillOnly h x :=
  hx.mono fun _ _ hr => .of_pool (congrArg System.pool hr)

theorem store : TillOnly h (Ctrl.store : Ctrl W ControllerStore) := .bind .get fun _ => .pure

theorem world : TillOnly h (Ctrl.world : Ctrl W W) := .bind .get fun _ => .pure

theorem modifyStore {f : ControllerStore → ControllerStore} :
    TillOnly h (Ctrl.modifyStore f : Ctrl W Unit) :=
  .modify fun _ => .of_pool rfl

theorem modifyCache {f : Context → Context} : TillOnly h (Ctrl.modifyCache f : Ctrl W Unit) :=
  .modify fun _ => .of_pool rfl

theorem poolCall {f : PoolCtx W → Result (PoolCtx W × α)}
    (hf : ∀ pool pool' a, pool.Keyed → f pool = .ok (pool', a) →
      pool'.Keyed ∧ h.till pool'.world = h.till pool.world) : TillOnly h (Ctrl.poolCall f) := by
  intro s
  unfold Ctrl.poolCall
  rw [final_get_bind]
  cases hrun : f s.pool with
  | error e => exact Std.Refl.refl s
  | ok r => exact fun hk => hf s.pool r.1 r.2 hk hrun

theorem withFlashGuard {x : Ctrl W α} (hx : TillOnly h x) : TillOnly h (withFlashGuard x) :=
  .bind .get fun _ => .bind (.modify fun _ => .of_pool rfl) fun _ => .bind hx fun _ =>
    .ite (.bind (.modify fun _ => .of_pool rfl) fun _ => .pure) .pure

/-- A step that moves nothing, and what follows it. -/
theorem skip {x : Ctrl W α} {f : α → Ctrl W β} {R : β → Invocation W → Prop} (hx : TillOnly h x)
    (hf : ∀ a, Leaves (Escrowed h tight due) (f a) R) :
    Leaves (Escrowed h tight due) (x >>= f) R :=
  .step (Within.along hx fun _ _ hr hs => hr.escrowed hs) fun a _ => hf a

end TillOnly

namespace Earmarks

variable {x : Ctrl W α} {δ : α → Address → Int}

/-- It is enough to start from what is held, exactly. -/
theorem of_exact (hx : ∀ due, Leaves (Escrowed h True due) x
    fun a => Escrowed h tight (due + δ a)) : Earmarks h tight x δ := by
  intro due s hs
  obtain ⟨hexact, hcovers⟩ := hs.exactly
  have hrun := hx (h.till s.pool.world) s hexact
  cases hx : x s with
  | error e s' => trivial
  | ok a s' =>
    rw [hx] at hrun
    exact hrun.mono fun token => (hcovers token).add (δ a token)

theorem loosen (hx : Earmarks h True x δ) : Earmarks h tight x δ :=
  .of_exact fun due => (hx due).post fun _ _ hs => hs.loosen

theorem bind {f : α → Ctrl W β} {R : β → Invocation W → Prop} (hx : Earmarks h tight x δ)
    (hf : ∀ a, Leaves (Escrowed h tight (due + δ a)) (f a) R) :
    Leaves (Escrowed h tight due) (x >>= f) R :=
  Ends.bind (hx due) hf

end Earmarks

/-- A step that reads the world, which is known from then on. -/
theorem Leaves.world {f : W → Ctrl W β} {R : β → Invocation W → Prop}
    (hf : ∀ w, h.till w = due → Leaves (Escrowed h True due) (f w) R) :
    Leaves (Escrowed h True due) (Ctrl.world >>= f) R :=
  fun s hs => hf s.pool.world hs.till_eq s hs

/-! ## Token moves -/

namespace ControllerHost.Settling

variable (hh : h.Settling) {w w' : W} {asset : Address} {amount : Int}

include hh

/-- A transfer out of the controller. -/
theorem transfer_out {recipient : Address} (hne : recipient ≠ h.controller)
    (hmove : h.transfer w asset h.controller recipient amount = .ok w') :
    h.till w' = h.till w - Pi.single asset amount := by
  funext token
  rw [Pi.sub_apply, Pi.single_apply]
  unfold till
  rw [hh.delivers hmove token h.controller]
  simp [hne.symm]

/-- A transfer of somebody else's. -/
theorem transfer_by {sender recipient : Address} (hne : sender ≠ h.controller)
    (hmove : h.transfer w asset sender recipient amount = .ok w') :
    h.till w' = h.till w + Pi.single asset (if recipient = h.controller then amount else 0) := by
  funext token
  rw [Pi.add_apply, Pi.single_apply]
  unfold till
  rw [hh.delivers hmove token h.controller]
  simp only [hne.symm, and_false, if_false, sub_zero]
  by_cases ht : token = asset <;> simp [ht, eq_comm]

theorem tryTransfer_zero {asset recipient : Address} :
    h.till (h.tryTransfer w asset h.pool recipient 0) = h.till w := by
  unfold TokenHost.tryTransfer
  split
  · rename_i w' hw
    rw [hh.transfer_by hh.apart.symm hw, ite_self, Pi.single_zero, add_zero]
  · rfl

/-- The pool pays. -/
theorem pays {s s' : PoolCtx W} {key : HubAssetKey} {recipient : Address} (hk : s.Keyed)
    (hpay : Pays h.toPoolHost s s' key recipient amount) :
    h.till s'.world =
      h.till s.world + Pi.single key.asset (if recipient = h.controller then amount else 0) := by
  obtain ⟨m, c, hget, hasset, hout⟩ := hpay
  rw [hk key m hget] at hasset
  unfold Cache.transferOut requireNonnegAmount at hout
  obtain ⟨-, -, hout⟩ := Fallible.bind_ok hout
  split at hout
  · rename_i hz
    have hworld : s.world = s'.world := Except.ok.inj hout
    rw [← hworld, hz, ite_self, Pi.single_zero, add_zero]
  · rw [hh.transfer_by hh.apart.symm hout, hasset]

end ControllerHost.Settling

theorem PoolCtx.Pays.nonneg {ph : PoolHost W} {s s' : PoolCtx W} {key : HubAssetKey}
    {recipient : Address} {amount : Int} (hpay : Pays ph s s' key recipient amount) :
    0 ≤ amount := by
  obtain ⟨m, c, -, -, hout⟩ := hpay
  obtain ⟨_, hnonneg, _⟩ := Fallible.bind_ok hout
  exact Fallible.require_ok_iff.mp hnonneg

/-! ## Calls -/

theorem Leaves.withFlashGuard {P : Invocation W → Prop} {x : Ctrl W α}
    {R : α → Invocation W → Prop} (hP : ∀ s flag, P s → P { s with flashLoanOngoing := flag })
    (hR : ∀ a s flag, R a s → R a { s with flashLoanOngoing := flag }) (hx : Leaves P x R) :
    Leaves P (Ctrl.withFlashGuard x) R :=
  Ends.bind (Ends.post Ends.get fun _ _ hs => hs.2) fun _ =>
    Ends.bind (Ends.modify fun s hs => hP s true hs) fun _ => Ends.bind hx fun a =>
    Ends.ite (fun _ => Ends.bind (Q := fun _ => R a) (Ends.modify fun s hs => hR a s false hs)
      fun _ => Ends.pure fun _ hs => hs) fun _ => Ends.pure fun _ hs => hs

theorem Earmarks.withFlashGuard {x : Ctrl W α} {δ : α → Address → Int}
    (hx : Earmarks h tight x δ) : Earmarks h tight (Ctrl.withFlashGuard x) δ := fun due =>
  Leaves.withFlashGuard (fun _ _ hs => ⟨hs.keyed, hs.till⟩) (fun _ _ _ hs => ⟨hs.keyed, hs.till⟩)
    (hx due)

theorem Earmarks.poolCall {f : PoolCtx W → Result (PoolCtx W × α)} {δ : α → Address → Int}
    (hf : ∀ pool pool' a, pool.Keyed → f pool = .ok (pool', a) →
      pool'.Keyed ∧ h.till pool'.world = h.till pool.world + δ a) :
    Earmarks h tight (Ctrl.poolCall f) δ := fun due => Leaves.poolCall fun s pool a hs hrun => by
  obtain ⟨hk, htill⟩ := hf s.pool pool a hs.keyed hrun
  refine ⟨hk, fun token => ?_⟩
  show Covers tight _ (h.till pool.world token)
  rw [htill]
  exact (hs.till token).add (δ a token)

theorem Earmarks.outside {f : W → Result (W × α)} {δ : α → Address → Int}
    (hf : ∀ w w' a, f w = .ok (w', a) → h.till w' = h.till w + δ a) :
    Earmarks h tight (Ctrl.outside f) δ := .poolCall fun pool pool' a hk hrun => by
  obtain ⟨⟨w', a'⟩, hrun, heq⟩ := Fallible.bind_ok hrun
  cases heq
  exact ⟨hk, hf pool.world w' a hrun⟩

/-- An outside call, after which the controller holds what it is found to hold. -/
theorem Leaves.outside {f : W → Result (W × α)} {R : (Address → Int) → Prop}
    (hf : ∀ w w' a, h.till w = due → f w = .ok (w', a) → R (h.till w')) :
    Leaves (Escrowed h True due) (Ctrl.outside f) fun _ s =>
      ∃ found, R found ∧ s.Escrowed h True found :=
  Leaves.foreign fun s w' a hs hrun =>
    ⟨_, hf s.pool.world w' a hs.till_eq hrun, hs.keyed, fun _ => .refl⟩

theorem Leaves.found {ι : Type} {R : ι → Prop} {due : ι → Address → Int} {x : Ctrl W β}
    {S : β → Invocation W → Prop}
    (hx : ∀ i, R i → Leaves (Escrowed h True (due i)) x S) :
    Leaves (fun s => ∃ i, R i ∧ s.Escrowed h True (due i)) x S := by
  rintro s ⟨i, hi, hs⟩
  exact hx i hi s hs

namespace Payments

variable {asset : Address} {amount : Int}

theorem balanceDeltaSince_exact {before : Int} :
    Leaves (Escrowed h True due) (balanceDeltaSince h asset h.controller before)
      fun d s => d = due asset - before ∧ s.Escrowed h True due := by
  refine Leaves.world fun w hw => Ends.lift (fun d hd s hs => ⟨?_, hs⟩) fun _ _ => trivial
  obtain ⟨-, rfl⟩ := I128.checkedSub_some.mp (Fallible.orThrow_ok_iff.mp hd)
  exact congrArg (· - before) (congrFun hw asset)

theorem transfer_earmarks (hh : h.Settling) {recipient : Address}
    (hne : recipient ≠ h.controller) :
    Earmarks h tight (transfer h asset h.controller recipient amount)
      fun _ => -Pi.single asset amount := .outside fun w w' a hrun => by
  obtain ⟨w1, hmove, heq⟩ := Fallible.bind_ok hrun
  cases heq
  rw [hh.transfer_out hne hmove, sub_eq_add_neg]

/-- What the controller sends. -/
theorem transferAmountMeasured_out (hh : h.Settling) {recipient : Address} {e : Error}
    (hne : recipient ≠ h.controller) :
    Earmarks h tight (transferAmountMeasured h asset h.controller recipient amount e)
      fun _ => -Pi.single asset amount := .outside fun w w' received hrun => by
  unfold TokenHost.transferAmountMeasured at hrun
  simp only [Fallible.bind_ok_iff, Fallible.pure_ok_iff, Prod.mk.injEq] at hrun
  obtain ⟨-, -, w1, hmove, _, -, rfl, rfl⟩ := hrun
  rw [hh.transfer_out hne hmove, sub_eq_add_neg]

/-- What the controller is sent. -/
theorem transferAmountMeasured_in (hh : h.Settling) {sender : Address} {e : Error}
    (hne : sender ≠ h.controller) :
    Earmarks h tight (transferAmountMeasured h asset sender h.controller amount e)
      fun received => Pi.single asset received := .outside fun w w' received hrun => by
  unfold TokenHost.transferAmountMeasured at hrun
  simp only [Fallible.bind_ok_iff, Fallible.orThrow_ok_iff, I128.checkedSub_some,
    Fallible.pure_ok_iff, Prod.mk.injEq] at hrun
  obtain ⟨-, -, w1, hmove, _, ⟨-, rfl⟩, rfl, rfl⟩ := hrun
  have hin := hh.transfer_by hne hmove
  rw [if_pos rfl] at hin
  have hat := congrFun hin asset
  rw [Pi.add_apply, Pi.single_eq_same] at hat
  unfold ControllerHost.till at hat
  rw [hin, hat, add_sub_cancel_left]

/-- What came in over a baseline goes to `refundTo`. -/
theorem refundControllerBalanceDelta_exact (hh : h.Settling) {refundTo : Address}
    (hne : refundTo ≠ h.controller) {before : Int} (hle : before ≤ due asset) :
    Leaves (Escrowed h True due) (refundControllerBalanceDelta h asset before refundTo)
      fun _ => Escrowed h True (due - Pi.single asset (due asset - before)) := by
  refine Ends.bind balanceDeltaSince_exact fun d => Ends.start fun s hs => ?_
  obtain ⟨rfl, hs⟩ := hs
  refine Leaves.via (Escrowed h True due) (Ends.ite (fun _ => ?_) fun hpos => ?_) ?_
  · exact (transfer_earmarks hh hne due).post fun _ _ hs => hs.congr (sub_eq_add_neg _ _).symm
  · refine Ends.pure fun s hs => hs.congr ?_
    have hzero : due asset - before = 0 := by omega
    rw [hzero, Pi.single_zero, sub_zero]
  · rintro s rfl
    exact hs

end Payments

/-! ## Positions -/

namespace Context

theorem persistSpokeUsage_till : TillOnly h (persistSpokeUsage : Ctrl W Unit) := by
  refine .bind .get fun s => ?_
  split
  · exact TillOnly.modifyStore
  · exact .pure

end Context

namespace Account

theorem loadOrCreateAccount_till (hh : h.Settling) {caller : Address} {accountId spokeId : Nat}
    {mode : PositionMode} {guard : AccountGuard} :
    TillOnly h (loadOrCreateAccount h caller accountId spokeId mode guard) := by
  refine .ite (.bind .lift fun _ =>
    .bind (TillOnly.of_reads (t := 0) Context.activeSpoke_reads) fun _ =>
    .bind (.bind .get fun _ => .bind .lift fun _ => .bind (.modify fun s hk => ?_) fun _ => .pure)
      fun _ => .bind TillOnly.modifyStore fun _ => .pure)
    (.bind (TillOnly.of_reads (t := 0) Storage.getAccount_reads) fun _ =>
      .bind (TillOnly.of_reads (t := 0) requireGuard_reads) fun _ => .pure)
  exact ⟨hk, hh.assign ..⟩

theorem cleanupAccountIfEmpty_till (hh : h.Settling) {a : Account} {id : Nat} :
    TillOnly h (a.cleanupAccountIfEmpty h id) :=
  .ite (.bind TillOnly.modifyStore fun _ => .bind .lift fun _ => .bind .get fun _ =>
    .bind .lift fun _ => .modify fun _ hk => ⟨hk, hh.release ..⟩) .pure

end Account

namespace Positions

variable {a : Account} {market : HubAssetKey} {amount : Int}

theorem finalizePositionFlow_till (hh : h.Settling) {id : Nat} {sides : PositionSides}
    {removeIfEmpty : Bool} : TillOnly h (finalizePositionFlow h id a sides removeIfEmpty) :=
  .bind Context.persistSpokeUsage_till fun _ => .bind TillOnly.modifyStore fun _ =>
    .bind TillOnly.modifyStore fun _ => .ite (Account.cleanupAccountIfEmpty_till hh) .pure

/-- A borrow into the controller brings what it reports, the amount if no fee is charged. -/
theorem borrowIntoController_exact (hh : h.Settling) {chargeFee : Bool} :
    Leaves (Escrowed h True due) (borrowIntoController h timestamp a market amount chargeFee)
      fun r s => (chargeFee = false → r.2 = amount) ∧
        s.Escrowed h True (due + Pi.single market.asset r.2) := by
  refine .result fun _ _ =>
    TillOnly.skip (TillOnly.of_reads (t := 0) validatePositionEntryGates_reads) fun _ =>
    Leaves.world fun w hw => Ends.bind (Leaves.withFlashGuard
    (R := fun (result : PoolStrategyMutation) s =>
      (chargeFee = false → result.amountReceived = amount) ∧
      s.Escrowed h True (due + Pi.single market.asset result.amountReceived))
    (fun _ _ hs => ⟨hs.keyed, hs.till⟩) (fun _ _ _ hs => ⟨hs.1, hs.2.keyed, hs.2.till⟩)
    (Leaves.poolCall fun s pool result hs hrun => ?_)) fun result => ?_
  · obtain ⟨hmoved, hpay⟩ := Strategy.apply_moved hrun
    refine ⟨fun hfree => ?_, hmoved.keyed hs.keyed, fun token => .of_eq ?_⟩
    · obtain ⟨o, hacc, hrun⟩ := Fallible.bind_ok hrun
      obtain ⟨w', -, heq⟩ := Fallible.bind_ok hrun
      obtain rfl := (Prod.mk.inj (Except.ok.inj heq)).2
      obtain ⟨_, _, _, _, -, -, -, -, hfee, -, -, -, -, -, -, -, -, hmut⟩ :=
        Strategy.accounting_ok hacc
      rw [hfree] at hfee
      have hzero : (0 : Int) = o.fee := Except.ok.inj hfee
      rw [hmut, ← hzero]
      exact sub_zero _
    · show _ = h.till pool.world token
      rw [hh.pays hs.keyed hpay, if_pos rfl, hs.till_eq]
      rfl
  · refine Ends.start fun s hs => ?_
    obtain ⟨hfree, hs⟩ := hs
    refine Leaves.via (Escrowed h True (due + Pi.single market.asset result.amountReceived))
      (Ends.bind Payments.balanceDeltaSince_exact fun measured => Ends.start fun s hs => ?_)
      (by rintro s rfl; exact hs)
    refine Leaves.via (Escrowed h True (due + Pi.single market.asset result.amountReceived))
      (Leaves.assert fun heq => Leaves.assert fun _ =>
        TillOnly.skip (.of_context mergeDebtLeg_contextOnly) fun _ =>
        Ends.pure fun s hs => ?_) (by rintro s rfl; exact hs.2)
    rw [heq]
    exact ⟨hfree, hs⟩

theorem borrowIntoController_earmarks (hh : h.Settling) {chargeFee : Bool} :
    Earmarks h tight (borrowIntoController h timestamp a market amount chargeFee)
      fun r => Pi.single market.asset r.2 :=
  .loosen fun _ => (borrowIntoController_exact hh).post fun _ _ hs => hs.2

/-- A batch that pays somebody else. -/
theorem withdrawBatch_till (hh : h.Settling) {recipient : Address}
    (hne : recipient ≠ h.controller) {liq : Bool} {entries : List PoolWithdrawEntry} :
    TillOnly h (Ctrl.poolCall fun pool =>
      LiquidityPool.withdraw h.toPoolHost timestamp pool recipient liq entries) := by
  refine .poolCall fun pool pool' rs hk hrun => ?_
  refine Ops.runBatch_inv (P := fun p => p.Keyed ∧ h.till p.world = h.till pool.world)
    (fun {s s' e r} hs hleg => ?_) ⟨hk, rfl⟩ hrun
  obtain ⟨net, hmoved, hpay | ⟨-, asset, hworld⟩⟩ := Withdraw.apply_moved hleg
  · refine ⟨hmoved.keyed hs.1, ?_⟩
    rw [hh.pays hs.1 hpay, if_neg hne, Pi.single_zero, add_zero, hs.2]
  · refine ⟨hmoved.keyed hs.1, ?_⟩
    rw [hworld, hh.tryTransfer_zero, hs.2]

theorem applyWithdrawBatch_till (hh : h.Settling) {recipient : Address}
    (hne : recipient ≠ h.controller) {kind : WithdrawKind} {entries : List PoolWithdrawEntry} :
    TillOnly h (applyWithdrawBatch h timestamp a recipient kind entries) :=
  .bind (withdrawBatch_till hh hne) fun _ =>
    .bind (TillOnly.of_context
      (forEachLeg_contextOnly fun _ _ => mergeWithdrawLeg_contextOnly)) fun _ => .pure

theorem executeWithdrawal_till (hh : h.Settling) {recipient : Address}
    (hne : recipient ≠ h.controller) {position : AccountPosition} :
    TillOnly h (executeWithdrawal h timestamp a recipient market amount position) :=
  .bind (TillOnly.of_reads (t := 0) enforceSpokeAssetFlags_reads) fun _ =>
    .bind (applyWithdrawBatch_till hh hne) fun _ => .bind .lift fun _ => .pure

/-- What a list of payments takes of each token. -/
def paid (payments : List HubPayment) : Address → Int :=
  (payments.map fun e => Pi.single e.1.asset e.2).sum

/-- **A deposit of the controller's.** -/
theorem processDeposit_earmarks (hh : h.Settling) {payments : List HubPayment} :
    Earmarks h tight (processDeposit h timestamp h.controller a payments)
      fun _ => -paid payments := by
  intro due
  refine TillOnly.skip (TillOnly.of_reads (t := 0) validatePositionEntryGates_reads) fun _ =>
    TillOnly.skip (TillOnly.of_reads (t := timestamp) Context.fetchPrices_reads) fun _ =>
    Ends.bind (Q := fun _ => Escrowed h tight (due - paid payments)) ?_ fun entries =>
    TillOnly.skip (.poolCall fun pool pool' rs hk hrun => ?_) fun results => ?_
  · refine (Ends.foldlM (T := fun _ => True)
      (P := fun _ rest => Escrowed h tight (due - paid payments + paid rest))
      (fun entries e rest _ => ?_) []).conseq (fun s hs => hs.congr (by abel)) ?_
    · refine TillOnly.skip (TillOnly.of_reads (t := 0) Context.requireSpokeAsset_reads) fun _ =>
        Earmarks.bind (Payments.transferAmountMeasured_out hh hh.apart.symm) fun _ =>
        Ends.pure fun s hs => hs.congr ?_
      simp only [paid, List.map_cons, List.sum_cons]
      abel
    · intro _ s hs
      exact hs.congr (by simp [paid])
  · refine Ops.runBatch_inv (P := fun p => p.Keyed ∧ h.till p.world = h.till pool.world)
      (fun {s s' e r} hs hleg => ?_) ⟨hk, rfl⟩ hrun
    obtain ⟨hmoved, hworld⟩ := Supply.leg_moved hleg
    exact ⟨hmoved.keyed hs.1, by rw [hworld, hs.2]⟩
  · exact (Leaves.along (TillOnly.of_context
      (forEachLeg_contextOnly fun _ _ => mergeSupplyLeg_contextOnly))
      fun _ _ hr hs => hr.escrowed hs).post fun _ _ hs => hs.congr (sub_eq_add_neg _ _)

end Positions

/-! ## Legs of a strategy -/

/-- What the router may do to the controller: it takes of `tokenIn` what it was sent for, pays in
`tokenOut`, and leaves other tokens alone. -/
def ControllerHost.Swaps (h : ControllerHost W) (tight : Prop) (tokenIn tokenOut : Address)
    (swap : Strategies.StrategySwap) : Prop :=
  ∀ w router amountIn w', h.executeStrategy w router h.controller amountIn swap = .ok w' →
    ∀ token, token ≠ tokenIn → token ≠ tokenOut → Covers tight (h.till w token) (h.till w' token)

namespace Strategies

open Positions

variable {a : Account} {market debt : HubAssetKey} {amount : Int} {caller : Address}

/-- A withdrawal into the controller brings what it brings. -/
theorem executeWithdrawal_into (hh : h.Settling) {position : AccountPosition} :
    Leaves (Escrowed h True due)
      (executeWithdrawal h timestamp a h.controller market amount position) fun _ s =>
        ∃ net, True ∧ s.Escrowed h True (due + Pi.single market.asset net) := by
  refine TillOnly.skip (TillOnly.of_reads (t := 0) enforceSpokeAssetFlags_reads) fun _ =>
    Ends.bind (Q := fun _ s => ∃ net, True ∧ s.Escrowed h True (due + Pi.single market.asset net))
      (Ends.bind (Leaves.poolCall (R := fun _ s => ∃ net, True ∧
      s.Escrowed h True (due + Pi.single market.asset net)) ?_) fun _ =>
      Leaves.found fun net _ => TillOnly.skip
        (.of_context (forEachLeg_contextOnly fun _ _ => mergeWithdrawLeg_contextOnly)) fun _ =>
        Ends.pure fun _ hs => ⟨net, trivial, hs⟩) fun _ =>
      Leaves.found fun net _ => .result fun _ _ => Ends.pure fun _ hs => ⟨net, trivial, hs⟩
  intro s pool rs hs hrun
  obtain ⟨p, r, rs', hleg, -, hnil, -⟩ := Ops.runBatch_cons hrun
  obtain ⟨rfl, -⟩ := Ops.runBatch_nil hnil
  obtain ⟨net, hmoved, hpay | ⟨rfl, asset, hworld⟩⟩ := Withdraw.apply_moved hleg
  · refine ⟨net, trivial, hmoved.keyed hs.keyed, fun token => .of_eq ?_⟩
    show _ = h.till pool.world token
    rw [hh.pays hs.keyed hpay, if_pos rfl, hs.till_eq]
    rfl
  · refine ⟨0, trivial, hmoved.keyed hs.keyed, fun token => .of_eq ?_⟩
    show _ = h.till pool.world token
    rw [hworld, hh.tryTransfer_zero, hs.till_eq, Pi.single_zero, add_zero]

theorem withdrawCollateralToController_earmarks (hh : h.Settling) {position : AccountPosition} :
    Earmarks h tight (withdrawCollateralToController h timestamp a market amount position)
      fun r => Pi.single market.asset r.2 := by
  refine .loosen fun due => Leaves.world fun w hw => Ends.bind (Leaves.withFlashGuard
    (R := fun _ s => ∃ net, True ∧ s.Escrowed h True (due + Pi.single market.asset net))
    (fun _ _ hs => ⟨hs.keyed, hs.till⟩) ?_ (executeWithdrawal_into hh)) fun r =>
    Leaves.found fun net _ => Ends.bind Payments.balanceDeltaSince_exact fun received =>
    Ends.pure ?_
  · rintro _ s _ ⟨net, -, hs⟩
    exact ⟨net, trivial, hs.keyed, hs.till⟩
  · rintro s ⟨hreceived, hs⟩
    have hnet : received = net := by
      rw [hreceived, Pi.add_apply, Pi.single_eq_same, ← hw]
      exact add_sub_cancel_left _ _
    rw [hnet]
    exact hs

theorem repayPrefundedPosition_into (hh : h.Settling) {position : DebtPosition} :
    Leaves (Escrowed h True due)
      (repayPrefundedPosition h timestamp a h.controller debt position amount) fun _ s =>
        ∃ rest, 0 ≤ rest ∧ s.Escrowed h True (due + Pi.single debt.asset rest) := by
  refine TillOnly.skip (TillOnly.of_reads (t := 0) enforceSpokeAssetFlags_reads) fun _ =>
    Ends.bind (Ends.bind (Leaves.poolCall (R := fun _ s => ∃ rest, 0 ≤ rest ∧
      s.Escrowed h True (due + Pi.single debt.asset rest)) ?_) fun _ =>
      Leaves.found fun rest hrest => TillOnly.skip
        (.of_context (forEachLeg_contextOnly fun _ _ => mergeDebtLeg_contextOnly)) fun _ =>
        Ends.pure fun _ hs => ⟨rest, hrest, hs⟩) fun _ =>
      Leaves.found fun rest hrest => .result fun _ _ => Ends.pure fun _ hs => ⟨rest, hrest, hs⟩
  intro s pool rs hs hrun
  obtain ⟨p, r, rs', hleg, -, hnil, -⟩ := Ops.runBatch_cons hrun
  obtain ⟨rfl, -⟩ := Ops.runBatch_nil hnil
  obtain ⟨rest, hmoved, hpay⟩ := Repay.apply_moved hleg
  refine ⟨rest, hpay.nonneg, hmoved.keyed hs.keyed, fun token => .of_eq ?_⟩
  show _ = h.till pool.world token
  rw [hh.pays hs.keyed hpay, if_pos rfl, hs.till_eq]
  rfl

/-- The pool refunds what a repayment leaves over, and it goes to the caller. -/
theorem repayDebtFromController_earmarks (hh : h.Settling) (hne : caller ≠ h.controller)
    {position : DebtPosition} :
    Earmarks h tight (repayDebtFromController h timestamp a caller debt amount position)
      fun _ => -Pi.single debt.asset amount := by
  refine .loosen fun due => Earmarks.bind (Payments.transferAmountMeasured_out hh hh.apart.symm)
    fun received => Leaves.world fun w hw => Ends.bind (repayPrefundedPosition_into hh) fun r =>
    Leaves.found fun rest hrest => ?_
  generalize due + -Pi.single debt.asset amount = due at hw ⊢
  have hbefore : h.balance w debt.asset h.controller = due debt.asset := congrFun hw debt.asset
  have hafter : (due + Pi.single debt.asset rest : Address → Int) debt.asset =
      due debt.asset + rest := by
    rw [Pi.add_apply, Pi.single_eq_same]
  refine Ends.bind (Payments.refundControllerBalanceDelta_exact hh hne ?_) fun _ =>
    Ends.pure fun s hs => hs.congr ?_
  · rw [hbefore, hafter]
    omega
  · rw [hbefore, hafter, add_sub_cancel_left, add_sub_cancel_right]

theorem verifyRouterOutput_exact {tokenOut : Address} {before : Int} :
    Leaves (Escrowed h True due) (verifyRouterOutput h tokenOut before)
      fun out s => out = due tokenOut - before ∧ s.Escrowed h True due := by
  refine Ends.bind Payments.balanceDeltaSince_exact fun out => Ends.start fun s hs => ?_
  exact Leaves.via (fun s => out = due tokenOut - before ∧ s.Escrowed h True due)
    (Leaves.assert fun _ => Ends.pure fun _ hs => hs) (by rintro s rfl; exact hs)

/-- **A swap.** What the router left of the input goes back, and the output is what arrived. -/
theorem swapTokens_earmarks (hh : h.Settling) {refundTo tokenIn tokenOut : Address}
    (hne : refundTo ≠ h.controller) (hio : tokenIn ≠ tokenOut) {swap : StrategySwap}
    (hswap : h.Swaps tight tokenIn tokenOut swap) :
    Earmarks h tight (swapTokens h refundTo tokenIn amount tokenOut swap)
      fun out => Pi.single tokenOut out - Pi.single tokenIn amount := by
  refine .of_exact fun due => .result fun _ _ => .assert fun _ =>
    TillOnly.skip TillOnly.store fun st => .unwrap fun router _ =>
    Leaves.world fun w hw => Leaves.world fun w' hw' => Ends.bind (Leaves.withFlashGuard
      (fun _ _ hs => ⟨hs.keyed, hs.till⟩) ?_ (Leaves.outside (R := fun found => ∀ token,
        token ≠ tokenIn → token ≠ tokenOut → Covers tight (due token) (found token)) ?_))
    fun _ => Leaves.found fun found hfound => Leaves.world fun w'' hw'' => .assert fun _ =>
    .unwrap fun spent hspent => .assert fun hle => .unwrap fun leftover hleft => ?_
  · rintro _ s _ ⟨found, hfound, hs⟩
    exact ⟨found, hfound, hs.keyed, hs.till⟩
  · intro u u' _ hu hrun token hin hout
    obtain ⟨u'', hcall, heq⟩ := Fallible.bind_ok hrun
    cases heq
    exact hu ▸ hswap u router amount u' hcall token hin hout
  · -- Either way the input is down by the amount, and the output by nothing.
    have hin : due tokenIn - found tokenIn = spent := by
      obtain ⟨-, hspent⟩ := I128.checkedSub_some.mp hspent
      exact (congrArg₂ (· - ·) (congrFun hw tokenIn) (congrFun hw'' tokenIn)).symm.trans hspent
    obtain ⟨-, hleft⟩ := I128.checkedSub_some.mp hleft
    have hend : ∀ (c : Address → Int), c = found - Pi.single tokenIn leftover →
        Leaves (Escrowed h True c)
          (verifyRouterOutput h tokenOut (h.balance w' tokenOut h.controller)) fun out =>
            Escrowed h tight (due + (Pi.single tokenOut out - Pi.single tokenIn amount)) := by
      rintro c rfl
      refine verifyRouterOutput_exact.post fun out s hs => hs.2.loosen.mono fun token => ?_
      have hout := hs.1
      have hbefore : h.balance w' tokenOut h.controller = due tokenOut := congrFun hw' tokenOut
      rw [hbefore] at hout
      simp only [Pi.add_apply, Pi.sub_apply, Pi.single_apply] at hout ⊢
      by_cases hi : token = tokenIn
      · subst hi
        rw [if_neg hio, if_pos rfl, if_pos rfl]
        exact .of_eq (by omega)
      · by_cases ho : token = tokenOut
        · subst ho
          rw [if_neg hi] at hout ⊢
          rw [if_pos rfl, if_neg hi]
          exact .of_eq (by omega)
        · rw [if_neg ho, if_neg hi, if_neg hi, sub_zero, add_zero, sub_zero]
          exact hfound token hi ho
    refine Ends.ite (fun _ => Earmarks.bind (Payments.transfer_earmarks hh hne) fun _ =>
      hend _ (sub_eq_add_neg _ _).symm) fun hpos => hend _ ?_
    have hzero : leftover = 0 := by omega
    rw [hzero, Pi.single_zero, sub_zero]

/-- Equal tokens pass through. -/
theorem swapTokensOrPassthrough_earmarks (hh : h.Settling)
    {refundTo tokenIn tokenOut : Address} (hne : refundTo ≠ h.controller) {swap : StrategySwap}
    (hswap : h.Swaps tight tokenIn tokenOut swap) :
    Earmarks h tight (swapTokensOrPassthrough h refundTo tokenIn amount tokenOut swap)
      fun out => Pi.single tokenOut out - Pi.single tokenIn amount := fun due =>
  Ends.ite (fun heq => Leaves.assert fun _ => Ends.pure fun s hs => hs.congr (by simp [heq]))
    fun hio => swapTokens_earmarks hh hne hio hswap due

theorem withdrawAndSwapFromSupply_earmarks (hh : h.Settling) (hne : caller ≠ h.controller)
    {tokenOut : Address} {swap : StrategySwap} (hswap : h.Swaps tight market.asset tokenOut swap) :
    Earmarks h tight
      (withdrawAndSwapFromSupply h timestamp a caller market amount tokenOut swap)
      fun r => Pi.single tokenOut r.2 := fun due =>
  .unwrap fun _ _ => Earmarks.bind (withdrawCollateralToController_earmarks hh) fun _ =>
    Earmarks.bind (swapTokensOrPassthrough_earmarks hh hne hswap) fun _ =>
    Ends.pure fun s hs => hs.congr (by abel)

theorem netSettleCollateralAgainstDebt_till :
    TillOnly h (netSettleCollateralAgainstDebt h timestamp a market amount) := by
  refine .bind (TillOnly.of_reads (t := 0) enforceSpokeAssetFlags_reads) fun _ =>
    .bind .lift fun _ => .bind .lift fun _ =>
    .bind (TillOnly.poolCall fun pool pool' r hk hrun => ?_) fun _ =>
    .bind (TillOnly.of_context mergeWithdrawLeg_contextOnly) fun _ =>
    TillOnly.of_context mergeDebtLeg_contextOnly
  obtain ⟨hmoved, hworld⟩ := LiquidityPool.netSettle_moved hrun
  exact ⟨hmoved.keyed hk, by rw [hworld]⟩

/-- Closing pays the caller. -/
theorem closeAfterRepay_till (hh : h.Settling) (hne : caller ≠ h.controller) {close : Bool} :
    TillOnly h (closeAfterRepay h timestamp caller a market close) := by
  have hof : ∀ (a : Account) (market : HubAssetKey),
      TillOnly h (withdrawAllOf h timestamp caller a market) := by
    intro a market
    unfold withdrawAllOf
    split
    · exact .pure
    · exact .bind (executeWithdrawal_till hh hne) fun _ => .pure
  refine .ite (.bind .lift fun _ => .bind (.ite .pure ?_) fun _ => .foldlM hof a) .pure
  exact .bind (withdrawBatch_till hh hne) fun _ => .pure

theorem strategyFinalize_till (hh : h.Settling) {id : Nat} :
    TillOnly h (strategyFinalize h timestamp id a) :=
  .bind (TillOnly.of_reads enforcePostPoolSolvency_reads) fun _ =>
    .bind (finalizePositionFlow_till hh) fun _ => .pure

/-- **The initial payment.** It becomes collateral, debt token, or collateral by a swap. -/
theorem collectInitialMultiplyPayment_earmarks (hh : h.Settling) (hne : caller ≠ h.controller)
    {payment : Option HubPayment} {convert : Option StrategySwap}
    (hswap : ∀ pay ∈ payment, ∀ swap ∈ convert, h.Swaps tight pay.1.asset market.asset swap) :
    Earmarks h tight (collectInitialMultiplyPayment h caller market debt payment convert)
      fun r => Pi.single market.asset r.1 + Pi.single debt.asset r.2 := by
  intro due
  cases payment with
  | none => exact Ends.pure fun s hs => hs.congr (by simp)
  | some payment =>
    refine .result fun _ _ => Earmarks.bind (Payments.transferAmountMeasured_in hh hne)
      fun received => Ends.ite (fun heq => Ends.pure fun s hs => hs.congr (by simp [heq]))
      fun hcollateral => Ends.ite (fun heq => Ends.pure fun s hs => hs.congr (by simp [heq]))
      fun _ => Leaves.unwrap fun swap hconvert => Earmarks.bind
        (swapTokens_earmarks hh hne hcollateral (hswap payment rfl swap hconvert)) fun out =>
        Ends.pure fun s hs => hs.congr ?_
    dsimp only
    rw [Pi.single_zero]
    abel

/-! ## Strategies -/

/-- A flow that leaves the controller's balances as they were, or above. -/
abbrev Returns (h : ControllerHost W) (tight : Prop) (x : Ctrl W α) : Prop :=
  Earmarks h tight x fun _ => 0

theorem Returns.of_leaves {x : Ctrl W α}
    (hx : ∀ due, Leaves (Escrowed h tight due) x fun _ => Escrowed h tight due) :
    Returns h tight x := fun due => (hx due).post fun _ _ hs => hs.congr (add_zero due).symm

theorem processMultiply_returns (hh : h.Settling) (hne : caller ≠ h.controller)
    {p : MultiplyParams} (hswap : h.Swaps tight p.debt.asset p.collateral.asset p.swap)
    (hconvert : ∀ pay ∈ p.initialPayment, ∀ swap ∈ p.convertSwap,
      h.Swaps tight pay.1.asset p.collateral.asset swap) :
    Returns h tight (processMultiply h timestamp caller p) := by
  refine .of_leaves fun due =>
    TillOnly.skip (TillOnly.of_reads (t := 0) Risk.requireNotFlashLoaning_reads) fun _ =>
    .result fun _ _ => TillOnly.skip (Account.loadOrCreateAccount_till hh) fun _ =>
    TillOnly.skip (TillOnly.of_reads (t := 0) requireCanSupply_reads) fun _ =>
    TillOnly.skip (TillOnly.of_reads (t := 0) Context.fetchPrices_reads) fun _ =>
    Earmarks.bind (collectInitialMultiplyPayment_earmarks hh hne hconvert) fun payment =>
    Earmarks.bind (borrowIntoController_earmarks hh) fun borrowed => .unwrap fun amountIn hin =>
    Earmarks.bind (swapTokensOrPassthrough_earmarks hh hne hswap) fun swapped =>
    .unwrap fun total htotal => Earmarks.bind (processDeposit_earmarks hh) fun _ =>
    TillOnly.skip (strategyFinalize_till hh) fun _ => Ends.pure fun s hs => hs.congr ?_
  obtain ⟨-, rfl⟩ := I128.checkedAdd_some.mp hin
  obtain ⟨-, rfl⟩ := I128.checkedAdd_some.mp htotal
  simp only [paid, List.map_cons, List.map_nil, List.sum_cons, List.sum_nil, Pi.single_add]
  abel

theorem processSwapDebt_returns (hh : h.Settling) (hne : caller ≠ h.controller)
    {p : SwapDebtParams} (hswap : h.Swaps tight p.newDebt.asset p.existingDebt.asset p.swap) :
    Returns h tight (processSwapDebt h timestamp caller p) :=
  .of_leaves fun due =>
    TillOnly.skip (TillOnly.of_reads (t := 0) Risk.requireNotFlashLoaning_reads) fun _ =>
    .assert fun _ => TillOnly.skip (TillOnly.of_reads (t := 0) Context.requireHubActive_reads)
    fun _ => .result fun _ _ => TillOnly.skip (TillOnly.of_reads (t := 0) Storage.getAccount_reads)
    fun _ => TillOnly.skip (TillOnly.of_reads (t := 0) Account.requireOwnerOrDelegate_reads)
    fun _ => .unwrap fun _ _ =>
    TillOnly.skip (TillOnly.of_reads (t := 0) Context.fetchPrices_reads) fun _ =>
    Earmarks.bind (borrowIntoController_earmarks hh) fun borrowed =>
    Earmarks.bind (swapTokensOrPassthrough_earmarks hh hne hswap) fun _ =>
    Earmarks.bind (repayDebtFromController_earmarks hh hne) fun _ =>
    TillOnly.skip (strategyFinalize_till hh) fun _ =>
    Ends.pure fun s hs => hs.congr (by abel)

theorem processSwapCollateral_returns (hh : h.Settling) (hne : caller ≠ h.controller)
    {p : SwapCollateralParams} (hswap : h.Swaps tight p.current.asset p.new.asset p.swap) :
    Returns h tight (processSwapCollateral h timestamp caller p) := by
  refine .of_leaves fun due =>
    TillOnly.skip (TillOnly.of_reads (t := 0) Risk.requireNotFlashLoaning_reads) fun _ =>
    .assert fun _ => TillOnly.skip (TillOnly.of_reads (t := 0) Context.requireHubActive_reads)
    fun _ => .result fun _ _ => TillOnly.skip (TillOnly.of_reads (t := 0) Storage.getAccount_reads)
    fun _ => TillOnly.skip (TillOnly.of_reads (t := 0) Account.requireOwnerOrDelegate_reads)
    fun _ => TillOnly.skip (TillOnly.of_reads (t := 0) requireCanSupply_reads) fun _ =>
    TillOnly.skip (TillOnly.of_reads (t := 0) Context.fetchPrices_reads) fun _ =>
    Earmarks.bind (withdrawAndSwapFromSupply_earmarks hh hne hswap) fun swapped =>
    Earmarks.bind (processDeposit_earmarks hh) fun _ =>
    TillOnly.skip (strategyFinalize_till hh) fun _ => Ends.pure fun s hs => hs.congr ?_
  simp only [paid, List.map_cons, List.map_nil, List.sum_cons, List.sum_nil]
  abel

theorem processRepayDebtWithCollateral_returns (hh : h.Settling) (hne : caller ≠ h.controller)
    {p : RepayWithCollateralParams} (hswap : h.Swaps tight p.collateral.asset p.debt.asset p.swap) :
    Returns h tight (processRepayDebtWithCollateral h timestamp caller p) := by
  refine .of_leaves fun due =>
    TillOnly.skip (TillOnly.of_reads (t := 0) Risk.requireNotFlashLoaning_reads) fun _ =>
    .result fun _ _ => TillOnly.skip (TillOnly.of_reads (t := 0) Context.requireHubActive_reads)
    fun _ => TillOnly.skip (TillOnly.of_reads (t := 0) Context.requireHubActive_reads)
    fun _ => TillOnly.skip (TillOnly.of_reads (t := 0) Storage.getAccount_reads)
    fun _ => TillOnly.skip (TillOnly.of_reads (t := 0) Account.requireOwnerOrDelegate_reads)
    fun _ => TillOnly.skip (TillOnly.of_reads (t := 0) Context.fetchPrices_reads) fun _ =>
    Ends.bind (Q := fun _ => Escrowed h tight due) (Ends.ite (fun _ => Leaves.assert fun _ => ?_)
      fun _ => Leaves.unwrap fun _ _ => ?_) fun _ =>
    TillOnly.skip (closeAfterRepay_till hh hne) fun _ =>
    TillOnly.skip (strategyFinalize_till hh) fun _ => Ends.pure fun _ hs => hs
  · exact Leaves.along netSettleCollateralAgainstDebt_till fun _ _ hr hs => hr.escrowed hs
  · exact Earmarks.bind (withdrawAndSwapFromSupply_earmarks hh hne hswap) fun _ =>
      (repayDebtFromController_earmarks hh hne _).post fun _ _ hs =>
        hs.congr (add_neg_cancel_right _ _)

/-! ## Receipts -/

/-- What is found, with the balances of some tokens back at what was due. -/
def restored (due found : Address → Int) (tokens : List Address) : Address → Int := fun token =>
  if token ∈ tokens then due token else found token

variable {found : Address → Int} {tokens : List Address}

theorem restored_nil : restored due found [] = found := by
  funext token
  rw [restored, if_neg List.not_mem_nil]

/-- One more token is brought back. -/
theorem restored_snoc {token : Address} :
    restored due found tokens - Pi.single token (restored due found tokens token - due token) =
      restored due found (tokens ++ [token]) := by
  funext t
  rw [Pi.sub_apply, Pi.single_apply]
  unfold restored
  by_cases ht : t = token
  · subst ht
    simp
  · simp [ht]

theorem restored_le (tokens : List Address) {token : Address} (hle : due token ≤ found token) :
    due token ≤ restored due found tokens token := by
  unfold restored
  split
  · exact le_rfl
  · exact hle

/-- The other tokens are where they were due. -/
theorem restored_covers (hle : ∀ token, due token ≤ found token)
    (hout : tight → ∀ token, token ∉ tokens → due token = found token) (token : Address) :
    Covers tight (due token) (restored due found tokens token) := by
  unfold restored
  split
  · exact .refl
  · rename_i hnot
    exact ⟨hle token, fun ht => hout ht token hnot⟩

/-- A snapshot says what is held. -/
theorem snapshotBalances_exact :
    Leaves (Escrowed h True due) (Payments.snapshotBalances h h.controller tokens)
      fun before s => (∀ token ∈ tokens, before.get? token = some (due token)) ∧
        s.Escrowed h True due := by
  refine Leaves.world fun w hw => Ends.pure fun s hs => ⟨?_, hs⟩
  suffices hsuf : ∀ (l : List Address) (snapshot : SortedMap Address Int),
      (∀ token v, snapshot.get? token = some v → v = due token) →
      ∀ token, (token ∈ l ∨ ∃ v, snapshot.get? token = some v) →
        (l.foldl (fun snapshot asset => if snapshot.contains asset then snapshot
          else snapshot.set asset (h.balance w asset h.controller)) snapshot).get? token =
            some (due token) from fun token ht => hsuf tokens .empty (by intro _ _ hv; cases hv)
    token (.inl ht)
  intro l
  induction l with
  | nil =>
    intro snapshot hsnap token ht
    obtain ⟨v, hv⟩ := ht.resolve_left List.not_mem_nil
    rw [List.foldl_nil, hv, hsnap token v hv]
  | cons asset l ih =>
    intro snapshot hsnap token ht
    rw [List.foldl_cons]
    by_cases hcontains : snapshot.contains asset = true
    · rw [if_pos hcontains]
      refine ih snapshot hsnap token ?_
      rcases ht with ht | ht
      · rcases List.mem_cons.mp ht with rfl | ht
        · exact .inr (SortedMap.contains_iff.mp hcontains)
        · exact .inl ht
      · exact .inr ht
    · rw [if_neg hcontains]
      have hbalance : h.balance w asset h.controller = due asset := congrFun hw asset
      refine ih _ (fun token v hv => ?_) token ?_
      · rw [SortedMap.get?_set, hbalance] at hv
        split at hv
        · rename_i heq
          rw [heq, ← Option.some.inj hv]
        · exact hsnap token v hv
      · rw [SortedMap.get?_set]
        by_cases heq : token = asset
        · exact .inr ⟨_, if_pos heq⟩
        · rw [if_neg heq]
          exact ht.imp_left fun ht => (List.mem_cons.mp ht).resolve_left heq

/-- One token's receipt over its baseline goes to the caller. -/
theorem refundListedAssets_exact (tokens : List Address) (hh : h.Settling)
    (hne : caller ≠ h.controller) {refundAssets : List Address} {before : SortedMap Address Int}
    (hbefore : ∀ token ∈ refundAssets, before.get? token = some (due token))
    (hle : ∀ token, due token ≤ found token) :
    Leaves (Escrowed h True (restored due found tokens))
      (refundListedAssets h caller refundAssets before)
      fun _ => Escrowed h True (restored due found (tokens ++ refundAssets)) := by
  refine (Ends.foldlM (T := fun _ => True) (l := refundAssets) (P := fun (_ : Unit) rest s =>
    ∃ done, (refundAssets = done ++ rest) ∧
      s.Escrowed h True (restored due found (tokens ++ done))) ?_ ()).conseq
    (fun s hs => ⟨[], rfl, by rwa [List.append_nil]⟩) ?_
  · intro _ token rest hmem
    refine Leaves.found fun done hdone => .unwrap fun baseline hbaseline => ?_
    obtain rfl : due token = baseline :=
      Option.some.inj ((hbefore token hmem).symm.trans hbaseline)
    refine (Payments.refundControllerBalanceDelta_exact hh hne
      (restored_le _ (hle token))).post fun _ s hs => ⟨done ++ [token], ?_, ?_⟩
    · rwa [List.append_assoc]
    · rw [restored_snoc, List.append_assoc] at hs
      exact hs
  · rintro _ s ⟨done, hdone, hs⟩
    rw [List.append_nil] at hdone
    rwa [hdone]

/-! ## Flash positions -/

/-- What a flash receiver may do to the controller: it takes nothing, and pays in listed tokens. -/
def ReceiverPays (h : ControllerHost W) (tight : Prop) (receiver : Address)
    (listed : List Address) : Prop :=
  ∀ w initiator id asset amount fee received data w',
    h.executeFlashPosition w receiver initiator id asset amount fee received h.controller data =
      .ok w' →
    ∀ token, h.till w token ≤ h.till w' token ∧
      (tight → token ∉ listed → h.till w token = h.till w' token)

/-- Collateral tokens are listed once. -/
theorem validateCollaterals_nodup {collaterals : List HubPayment} {P : Invocation W → Prop}
    (hP : ∀ s s', SameTill h s s' → P s → P s') :
    Within P (validateCollaterals a collaterals) fun _ =>
      (collaterals.map fun e => e.1.asset).Nodup := by
  have hloop : Within P (collaterals.foldlM (fun (seen : List Address) e => do
      requireNonnegAmount e.2
      assertWithError (e.1.asset ∉ seen) .invalidPayments
      requireCanSupply a.spokeId e.1
      return e.1.asset :: seen : List Address → HubPayment → Ctrl W (List Address)) [])
      fun seen => seen.reverse = collaterals.map (fun e => e.1.asset) ∧ seen.Nodup := by
    refine Spec.foldlM (P := fun (seen : List Address) (done : List HubPayment) =>
      seen.reverse = done.map (fun e => e.1.asset) ∧ seen.Nodup) ?_ [] ⟨rfl, List.nodup_nil⟩
    rintro seen e done - ⟨hseen, hnodup⟩
    refine Within.result fun _ _ => Within.assert fun hnew => Within.bind (Q := fun _ => True)
      (Within.along (TillOnly.of_reads (t := 0) requireCanSupply_reads) hP) fun _ _ =>
      Within.pure ?_
    exact ⟨by simp [hseen], List.nodup_cons.mpr ⟨hnew, hnodup⟩⟩
  refine .result fun _ _ => .bind (Q := fun _ => True) (Within.along TillOnly.store hP) fun _ _ =>
    .assert fun _ => .bind hloop fun seen hseen => .assert fun _ =>
    (Within.along (TillOnly.of_reads (t := 0) validatePositionEntryGates_reads) hP).post
      fun _ _ => ?_
  rw [← hseen.1]
  exact List.nodup_reverse.mpr hseen.2

/-- What the receiver is forwarded is what was borrowed. -/
theorem mintAndForward_returns (hh : h.Settling) {receiver : Address}
    (hne : receiver ≠ h.controller) :
    Leaves (Escrowed h True due) (mintAndForward h timestamp a debt amount receiver)
      fun _ => Escrowed h True due := by
  refine Leaves.world fun w hw => Earmarks.bind (borrowIntoController_earmarks hh) fun r =>
    Ends.bind Payments.balanceDeltaSince_exact fun measured => Ends.start fun s hs => ?_
  refine Leaves.via (Escrowed h True (due + Pi.single debt.asset r.2)) (Leaves.assert fun heq =>
    Leaves.assert fun _ =>
    Earmarks.bind (Payments.transferAmountMeasured_out hh hne) fun forwarded =>
    Leaves.assert fun _ => Ends.pure fun s hs => hs.congr ?_) (by rintro s rfl; exact hs.2)
  rw [heq, add_neg_cancel_right]

/-- Funding and callback, with what the snapshots in between say. -/
theorem fundAndCall_found (hh : h.Settling) {id : Nat} {p : FlashPositionParams}
    (hne : p.receiver ≠ h.controller)
    (hpays : ReceiverPays h tight p.receiver
      (p.collaterals.map (fun e => e.1.asset) ++ p.refundAssets)) :
    Leaves (Escrowed h True due) (fundAndCall h timestamp caller id a p) fun r s =>
      ∃ found, ((∀ token ∈ p.collaterals.map (fun e => e.1.asset),
          r.2.1.get? token = some (due token)) ∧
        (∀ token ∈ p.refundAssets, r.2.2.get? token = some (due token)) ∧
        (∀ token, due token ≤ found token) ∧
        (tight → ∀ token, token ∉ p.collaterals.map (fun e => e.1.asset) ++ p.refundAssets →
          due token = found token)) ∧ s.Escrowed h True found := by
  refine Ends.bind (mintAndForward_returns hh hne) fun r =>
    Ends.bind snapshotBalances_exact fun before => Ends.start fun s hs => ?_
  refine Leaves.via (Escrowed h True due) (Ends.bind snapshotBalances_exact fun before' =>
    Ends.start fun s' hs' => Leaves.via (Escrowed h True due) (Ends.bind (Leaves.outside
      (R := fun found => ∀ token, due token ≤ found token ∧ (tight → token ∉
        p.collaterals.map (fun e => e.1.asset) ++ p.refundAssets → due token = found token)) ?_)
      fun _ => Leaves.found fun found hfound => Ends.pure fun s'' hs'' => ⟨found,
        ⟨hs.1, hs'.1, fun token => (hfound token).1, fun ht token => (hfound token).2 ht⟩, hs''⟩)
      (by rintro _ rfl; exact hs'.2)) (by rintro _ rfl; exact hs.2)
  intro w w' _ hw hrun token
  obtain ⟨w'', hcall, heq⟩ := Fallible.bind_ok hrun
  cases heq
  exact hw ▸ hpays _ _ _ _ _ _ _ _ w' hcall token

theorem paid_snoc {payments : List HubPayment} {e : HubPayment} :
    paid (payments ++ [e]) = paid payments + Pi.single e.1.asset e.2 := by
  simp [paid]

/-- One more receipt is set apart; a token without one is where it was due. -/
theorem restored_collect {deposits : List HubPayment} {e : HubAssetKey}
    (hpaid : found - paid deposits = restored due found tokens) (hnew : e.asset ∉ tokens)
    (hle : due e.asset ≤ found e.asset) :
    found - paid (if found e.asset - due e.asset > 0 then
        deposits ++ [(e, found e.asset - due e.asset)] else deposits) =
      restored due found (tokens ++ [e.asset]) := by
  have hat : restored due found tokens e.asset = found e.asset := if_neg hnew
  rw [← restored_snoc, hat, ← hpaid]
  split
  · rw [paid_snoc, sub_sub]
  · have hzero : found e.asset - due e.asset = 0 := by omega
    rw [hzero, Pi.single_zero, sub_zero]

/-- The receipts, added up. -/
theorem collectCollateralDeposits_exact {collaterals : List HubPayment}
    {before : SortedMap Address Int}
    (hbefore : ∀ token ∈ collaterals.map (fun e => e.1.asset), before.get? token = some (due token))
    (hle : ∀ token, due token ≤ found token)
    (hnodup : (collaterals.map fun e => e.1.asset).Nodup) :
    Leaves (Escrowed h True found) (collectCollateralDeposits h collaterals before)
      fun deposits s => found - paid deposits =
          restored due found (collaterals.map fun e => e.1.asset) ∧
        s.Escrowed h True found := by
  refine Ends.bind ((Ends.foldlM (l := collaterals) (T := fun _ => True)
    (P := fun (deposits : List HubPayment) rest s => (∃ done, collaterals = done ++ rest ∧
      found - paid deposits = restored due found (done.map fun e => e.1.asset)) ∧
      s.Escrowed h True found) ?_ []).conseq (fun s hs => ⟨⟨[], rfl, ?_⟩, hs⟩)
      fun _ _ hs => hs) fun deposits => Leaves.assert fun _ => Ends.pure ?_
  · intro deposits e rest hmem
    refine Ends.start fun s hs => ?_
    obtain ⟨⟨done, hdone, hpaid⟩, hs⟩ := hs
    refine Leaves.via (Escrowed h True found) (Leaves.unwrap fun baseline hbaseline =>
      Ends.bind Payments.balanceDeltaSince_exact fun delta => Ends.start fun s' hs' => ?_)
      (by rintro _ rfl; exact hs)
    obtain ⟨hdelta, hs'⟩ := hs'
    obtain rfl : due e.1.asset = baseline := Option.some.inj
      ((hbefore _ (List.mem_map_of_mem hmem)).symm.trans hbaseline)
    refine Leaves.via (Escrowed h True found) (Leaves.assert fun _ => Ends.pure fun s hs =>
      ⟨⟨done ++ [e], by rwa [List.append_assoc], ?_⟩, hs⟩) (by rintro _ rfl; exact hs')
    rw [List.map_append, List.map_singleton, hdelta]
    refine restored_collect hpaid ?_ (hle _)
    rw [hdone, List.map_append, List.map_cons, List.nodup_middle, List.nodup_cons] at hnodup
    exact fun hin => hnodup.1 (List.mem_append_left _ hin)
  · rw [List.map_nil, restored_nil, paid, List.map_nil, List.sum_nil, sub_zero]
  · rintro s ⟨⟨done, hdone, hpaid⟩, hs⟩
    rw [List.append_nil] at hdone
    exact ⟨hdone ▸ hpaid, hs⟩

theorem requireFlashPositionStillOpen_till :
    TillOnly h (requireFlashPositionStillOpen a debt : Ctrl W Unit) :=
  .bind .lift fun _ => .bind .lift fun _ => .lift

/-- **Flash positions.** -/
theorem processFlashPosition_returns (hh : h.Settling) (hne : caller ≠ h.controller)
    {p : FlashPositionParams} (hpays : ReceiverPays h tight p.receiver
      (p.collaterals.map (fun e => e.1.asset) ++ p.refundAssets)) :
    Returns h tight (processFlashPosition h timestamp caller p) := by
  have hkeep : ∀ {due : Address → Int} (s s' : Invocation W), SameTill h s s' →
      Escrowed h True due s → Escrowed h True due s' := fun _ _ hr hs => hr.escrowed hs
  refine .of_exact fun due =>
    TillOnly.skip (TillOnly.of_reads (t := 0) Risk.requireNotFlashLoaning_reads) fun _ =>
    .result fun _ _ => TillOnly.skip (TillOnly.of_reads (t := 0) Context.requireHubActive_reads)
    fun _ => .assert fun _ => TillOnly.skip (.bind TillOnly.world fun _ => .lift) fun _ =>
    .assert fun hreceiver =>
    TillOnly.skip (TillOnly.of_reads (t := 0) Context.cachedPoolSyncData_reads) fun _ =>
    .assert fun _ => TillOnly.skip (Account.loadOrCreateAccount_till hh) fun r =>
    .step (validateCollaterals_nodup hkeep) fun _ hnodup =>
    TillOnly.skip (TillOnly.of_reads (t := 0) validateRefundAssets_reads) fun _ =>
    TillOnly.skip (TillOnly.of_reads (t := 0) Context.fetchPrices_reads) fun _ =>
    Ends.bind (Leaves.withFlashGuard (fun _ _ hs => ⟨hs.keyed, hs.till⟩) ?_
      (fundAndCall_found hh hreceiver.1 hpays)) fun r' => Leaves.found fun found hfound => ?_
  · rintro _ s _ ⟨found, hfound, hs⟩
    exact ⟨found, hfound, hs.keyed, hs.till⟩
  · obtain ⟨hbefore, hbefore', hle, hout⟩ := hfound
    refine Ends.bind (collectCollateralDeposits_exact hbefore hle hnodup) fun deposits =>
      Ends.start fun s hs => ?_
    obtain ⟨hpaid, hs⟩ := hs
    refine Leaves.via (Escrowed h True found) (Earmarks.bind (processDeposit_earmarks hh)
      fun _ => Ends.bind ((refundListedAssets_exact (p.collaterals.map fun e => e.1.asset)
        hh hne hbefore' hle).pre fun s hs => ?_) fun _ =>
      TillOnly.skip requireFlashPositionStillOpen_till fun _ =>
      TillOnly.skip (strategyFinalize_till hh) fun _ =>
      TillOnly.skip requireFlashPositionStillOpen_till fun _ => Ends.pure fun s hs => ?_)
      (by rintro _ rfl; exact hs)
    · exact hs.congr ((sub_eq_add_neg _ _).symm.trans hpaid)
    · exact hs.loosen.mono fun token => by
        rw [Pi.add_apply, Pi.zero_apply, add_zero]
        exact restored_covers hle hout token

/-! ## Blend migration -/

/-- What a submission lets Blend take. -/
def authorised (requests : List BlendRequest) : Address → Int :=
  (requests.map fun r => if r.requestType = reqRepay then Pi.single r.address r.amount else 0).sum

/-- What Blend may do to the controller: it takes at most what is authorised, and moves only
tokens it was asked about. -/
def BlendSettles (h : ControllerHost W) (tight : Prop) (blendPool : Address) : Prop :=
  ∀ w holder requests w',
    h.blendSubmit w blendPool holder h.controller h.controller requests = .ok w' →
    ∀ token, h.till w token - authorised requests token ≤ h.till w' token ∧
      (tight → token ∉ requests.map BlendRequest.address → h.till w token = h.till w' token)

theorem guardedSubmit_found {blendPool : Address} (hblend : BlendSettles h tight blendPool)
    {requests : List BlendRequest} :
    Leaves (Escrowed h True due) (guardedSubmit h blendPool caller requests) fun _ s =>
      ∃ found, (∀ token, due token - authorised requests token ≤ found token ∧
        (tight → token ∉ requests.map BlendRequest.address → due token = found token)) ∧
        s.Escrowed h True found := by
  refine Leaves.withFlashGuard (fun _ _ hs => ⟨hs.keyed, hs.till⟩) ?_
    (Leaves.outside fun w w' _ hw hrun token => ?_)
  · rintro _ s _ ⟨found, hfound, hs⟩
    exact ⟨found, hfound, hs.keyed, hs.till⟩
  · obtain ⟨w'', hcall, heq⟩ := Fallible.bind_ok hrun
    cases heq
    exact hw ▸ hblend _ _ _ w' hcall token

/-- The caps, added up. -/
def capsOf (debtCaps : List PaymentTuple) : Address → Int :=
  (debtCaps.map fun cap => Pi.single cap.asset cap.amount).sum

theorem capsOf_of_not_mem {debtCaps : List PaymentTuple} {token : Address}
    (hnot : token ∉ debtCaps.map PaymentTuple.asset) : capsOf debtCaps token = 0 := by
  induction debtCaps with
  | nil => rfl
  | cons cap debtCaps ih =>
    rw [List.map_cons, List.mem_cons, not_or] at hnot
    have hrest := ih hnot.2
    unfold capsOf at hrest ⊢
    rw [List.map_cons, List.sum_cons, Pi.add_apply, hrest, Pi.single_eq_of_ne hnot.1, add_zero]

/-- What Blend left of a debt over its baseline repays it again. -/
theorem reconcileDebtRefund_exact (hh : h.Settling) (hne : caller ≠ h.controller) {hubId : Nat}
    {before : SortedMap Address Int} {cap : PaymentTuple}
    (hbefore : before.get? cap.asset = some (due cap.asset))
    (hle : due cap.asset ≤ found cap.asset) :
    Leaves (Escrowed h True (restored due found tokens))
      (reconcileDebtRefund h timestamp caller hubId before a cap)
      fun _ => Escrowed h True (restored due found (tokens ++ [cap.asset])) := by
  refine Ends.bind Payments.balanceDeltaSince_exact fun refund => Ends.start fun s hs => ?_
  obtain ⟨hrefund, hs⟩ := hs
  rw [hbefore, Option.getD_some] at hrefund
  refine Leaves.via (Escrowed h True (restored due found tokens)) (Ends.ite (fun _ =>
    Leaves.unwrap fun _ _ => (repayDebtFromController_earmarks hh hne _).post fun _ s hs => ?_)
    fun hpos => Ends.pure fun s hs => ?_) (by rintro _ rfl; exact hs)
  · rw [← restored_snoc, ← hrefund]
    exact hs.congr (sub_eq_add_neg _ _).symm
  · have hzero : restored due found tokens cap.asset - due cap.asset = 0 := by
      have := restored_le tokens hle
      omega
    rw [← restored_snoc, hzero, Pi.single_zero, sub_zero]
    exact hs

theorem executeMigrationDebtLeg_returns (hh : h.Settling) (hne : caller ≠ h.controller)
    {p : MigrateBlendParams} (hblend : BlendSettles h tight p.blendPool) :
    Returns h tight (executeMigrationDebtLeg h timestamp caller p a) := by
  refine .of_exact fun due => Ends.ite (fun _ => Ends.pure fun s hs => ?_) fun _ =>
    Ends.bind snapshotBalances_exact fun before => Ends.start fun s hs => ?_
  · rw [Pi.add_def]
    simpa using hs.loosen
  obtain ⟨hbefore, hs⟩ := hs
  refine Leaves.via (Escrowed h True due) (Ends.bind (Q := fun _ =>
    Escrowed h True (due + capsOf p.debtCaps)) ?_ fun _ =>
    Ends.bind (guardedSubmit_found hblend) fun _ => Leaves.found fun found hfound => ?_)
    (by rintro _ rfl; exact hs)
  · -- Borrowed without a fee, each cap is held in full.
    refine (Ends.foldlM (l := p.debtCaps) (T := fun _ => True) (P := fun (_ : Account) rest =>
      Escrowed h True (due + capsOf p.debtCaps - capsOf rest)) (fun a cap rest _ => ?_) a).conseq
      (fun s hs => hs.congr (add_sub_cancel_right _ _).symm) fun _ s hs => hs.congr ?_
    · refine Leaves.result fun _ _ => Ends.bind (borrowIntoController_exact hh) fun r =>
        Ends.pure fun s hs => hs.2.congr ?_
      rw [hs.1 rfl, capsOf, capsOf, capsOf, List.map_cons, List.sum_cons]
      abel
    · rw [capsOf, capsOf, List.map_nil, List.sum_nil, sub_zero]
  · have hcaps : authorised (p.debtCaps.map fun cap => ⟨reqRepay, cap.asset, cap.amount⟩) =
        capsOf p.debtCaps := by
      unfold authorised capsOf
      rw [List.map_map]
      rfl
    have haddresses : (p.debtCaps.map fun cap =>
        (⟨reqRepay, cap.asset, cap.amount⟩ : BlendRequest)).map BlendRequest.address =
        p.debtCaps.map PaymentTuple.asset := by
      rw [List.map_map]
      rfl
    rw [hcaps, haddresses] at hfound
    have hle : ∀ token, due token ≤ found token := fun token => by
      have := (hfound token).1
      rw [Pi.add_apply] at this
      omega
    refine (Ends.foldlM (l := p.debtCaps) (T := fun _ => True) (P := fun (_ : Account) rest s =>
      ∃ done, p.debtCaps = done ++ rest ∧
        s.Escrowed h True (restored due found (done.map PaymentTuple.asset)))
      (fun a cap rest hmem => ?_) _).conseq
      (fun s hs => ⟨[], rfl, by rwa [List.map_nil, restored_nil]⟩) ?_
    · refine Leaves.found fun done hdone => (reconcileDebtRefund_exact hh hne
        (hbefore _ (List.mem_map_of_mem hmem)) (hle _)).post fun _ s hs =>
        ⟨done ++ [cap], by rwa [List.append_assoc], ?_⟩
      rwa [List.map_append, List.map_singleton]
    · rintro _ s ⟨done, hdone, hs⟩
      rw [List.append_nil] at hdone
      refine hs.loosen.mono fun token => ?_
      rw [Pi.add_apply, Pi.zero_apply, add_zero, ← hdone]
      refine restored_covers hle (fun ht token hnot => ?_) token
      have heq := (hfound token).2 ht hnot
      rwa [Pi.add_apply, capsOf_of_not_mem hnot, add_zero] at heq

theorem withdrawAssets_nodup (p : MigrateBlendParams) : p.withdrawAssets.Nodup := by
  suffices hsuf : ∀ (l out : List Address), out.Nodup →
      (l.foldl (fun out asset => if asset ∈ out then out else out ++ [asset]) out).Nodup from
    hsuf _ [] List.nodup_nil
  intro l
  induction l with
  | nil => exact fun _ hout => hout
  | cons asset l ih =>
    intro out hout
    rw [List.foldl_cons]
    refine ih _ ?_
    split
    · exact hout
    · rename_i hnot
      refine List.nodup_append.mpr ⟨hout, List.nodup_singleton asset, fun x hx y hy heq => ?_⟩
      rw [heq, List.mem_singleton.mp hy] at hx
      exact hnot hx

/-- The requests of a sweep ask about the assets it deposits. -/
theorem mem_withdrawAssets {p : MigrateBlendParams} {asset : Address}
    (hmem : asset ∈ p.collateralAssets ++ p.supplyAssets) : asset ∈ p.withdrawAssets := by
  suffices hsuf : ∀ (l out : List Address), asset ∈ l ∨ asset ∈ out →
      asset ∈ l.foldl (fun out asset => if asset ∈ out then out else out ++ [asset]) out from
    hsuf _ [] (.inl hmem)
  intro l
  induction l with
  | nil => exact fun _ h => h.resolve_left List.not_mem_nil
  | cons x l ih =>
    intro out hor
    rw [List.foldl_cons]
    refine ih _ ?_
    rcases hor with hl | hout
    · rcases List.mem_cons.mp hl with rfl | hl
      · right
        split
        · assumption
        · exact List.mem_append_right _ List.mem_cons_self
      · exact .inl hl
    · right
      split
      · exact hout
      · exact List.mem_append_left _ hout

/-- The receipts of a sweep, deposited. -/
theorem depositWithdrawn_exact (hh : h.Settling) {hubId : Nat} {assets : List Address}
    {before : SortedMap Address Int}
    (hbefore : ∀ token ∈ assets, before.get? token = some (due token))
    (hle : ∀ token, due token ≤ found token) (hnodup : assets.Nodup) :
    Leaves (Escrowed h True found) (depositWithdrawn h timestamp a hubId assets before)
      fun _ => Escrowed h True (restored due found assets) := by
  refine Ends.bind ((Ends.foldlM (l := assets) (T := fun _ => True)
    (P := fun (deposits : List HubPayment) rest s => (∃ done, assets = done ++ rest ∧
      found - paid deposits = restored due found done) ∧ s.Escrowed h True found) ?_ []).conseq
      (fun s hs => ⟨⟨[], rfl, ?_⟩, hs⟩) fun _ _ hs => hs) fun deposits => Ends.start fun s hs => ?_
  · intro deposits asset rest hmem
    refine Ends.start fun s hs => ?_
    obtain ⟨⟨done, hdone, hpaid⟩, hs⟩ := hs
    refine Leaves.via (Escrowed h True found) (Ends.bind Payments.balanceDeltaSince_exact
      fun received => Ends.pure fun s' hs' => ⟨⟨done ++ [asset], by rwa [List.append_assoc], ?_⟩,
        hs'.2⟩) (by rintro _ rfl; exact hs)
    rw [hs'.1, hbefore _ hmem, Option.getD_some]
    refine restored_collect (e := ⟨hubId, asset⟩) hpaid ?_ (hle _)
    rw [hdone, List.nodup_middle, List.nodup_cons] at hnodup
    exact fun hin => hnodup.1 (List.mem_append_left _ hin)
  · rw [restored_nil, paid, List.map_nil, List.sum_nil, sub_zero]
  · obtain ⟨⟨done, hdone, hpaid⟩, hs⟩ := hs
    rw [List.append_nil] at hdone
    rw [← hdone] at hpaid
    refine Leaves.via (Escrowed h True found) (Ends.ite (fun _ =>
      (processDeposit_earmarks hh found).post fun _ s hs => ?_) fun hnil =>
      Ends.pure fun s hs => ?_) (by rintro _ rfl; exact hs)
    · exact hs.congr ((sub_eq_add_neg _ _).symm.trans hpaid)
    · rw [not_not.mp hnil, paid, List.map_nil, List.sum_nil, sub_zero] at hpaid
      exact hs.congr hpaid

theorem sweepAndDeposit_returns (hh : h.Settling) {p : MigrateBlendParams}
    (hblend : BlendSettles h tight p.blendPool) :
    Returns h tight (sweepAndDeposit h timestamp caller p a) := by
  refine .of_exact fun due => Ends.ite (fun _ => Ends.bind snapshotBalances_exact fun before =>
    Ends.start fun s hs => ?_) fun _ => Ends.pure fun s hs => ?_
  · obtain ⟨hbefore, hs⟩ := hs
    refine Leaves.via (Escrowed h True due) (Ends.bind (guardedSubmit_found hblend) fun _ =>
      Leaves.found fun found hfound => ?_) (by rintro _ rfl; exact hs)
    have hnone : ∀ token, authorised ((p.collateralAssets.map fun asset =>
        (⟨reqWithdrawCollateral, asset, blendWithdrawAllAmount⟩ : BlendRequest)) ++
        p.supplyAssets.map fun asset => ⟨reqWithdraw, asset, blendWithdrawAllAmount⟩) token =
          0 := by
      intro token
      unfold authorised
      rw [List.sum_eq_zero]
      · rfl
      · simp only [List.map_append, List.map_map, List.mem_append, List.mem_map]
        rintro _ (⟨asset, -, rfl⟩ | ⟨asset, -, rfl⟩) <;> rfl
    have hle : ∀ token, due token ≤ found token := fun token => by
      have := (hfound token).1
      rwa [hnone token, sub_zero] at this
    refine (depositWithdrawn_exact hh hbefore hle (withdrawAssets_nodup p)).post fun _ s hs =>
      hs.loosen.mono fun token => ?_
    rw [Pi.add_apply, Pi.zero_apply, add_zero]
    refine restored_covers hle (fun ht token hnot => (hfound token).2 ht fun hin =>
      hnot (mem_withdrawAssets ?_)) token
    simpa [Function.comp_def] using hin
  · exact hs.loosen.congr (add_zero due).symm

theorem processMigrateBlend_returns (hh : h.Settling) (hne : caller ≠ h.controller)
    {p : MigrateBlendParams} (hblend : BlendSettles h tight p.blendPool) :
    Returns h tight (processMigrateBlend h timestamp caller p) :=
  .of_leaves fun due =>
    TillOnly.skip (TillOnly.of_reads (t := 0) Risk.requireNotFlashLoaning_reads) fun _ =>
    TillOnly.skip (TillOnly.of_reads (t := 0) Context.requireHubActive_reads) fun _ =>
    TillOnly.skip (.bind .lift fun _ => .bind TillOnly.store fun _ => .lift) fun _ =>
    .result fun _ _ => TillOnly.skip (Account.loadOrCreateAccount_till hh) fun _ =>
    TillOnly.skip (TillOnly.of_reads (t := 0) Context.fetchPrices_reads) fun _ =>
    TillOnly.skip
      (.foldlM (fun _ _ => TillOnly.of_reads (t := 0) requireCanSupply_reads) _) fun _ =>
    Earmarks.bind (executeMigrationDebtLeg_returns hh hne hblend) fun _ =>
    Earmarks.bind (sweepAndDeposit_returns hh hblend) fun _ =>
    TillOnly.skip (strategyFinalize_till hh) fun _ => Ends.pure fun s hs => hs.congr (by simp)

end Strategies

/-! ## Calls -/

open Strategies Governance

/-- The caller of a strategy. -/
def ControllerCall.strategist : ControllerCall → Option Address
  | flashPosition caller _ | multiply caller _ | swapDebt caller _ | swapCollateral caller _
  | repayDebtWithCollateral caller _ | migrateFromBlend caller _ => some caller
  | _ => none

/-- What the outside contracts that a strategy calls do to the controller. -/
def ControllerCall.Honoured (h : ControllerHost W) (tight : Prop) : ControllerCall → Prop
  | flashPosition _ p => ReceiverPays h tight p.receiver
      (p.collaterals.map (fun e => e.1.asset) ++ p.refundAssets)
  | multiply _ p => h.Swaps tight p.debt.asset p.collateral.asset p.swap ∧
      ∀ pay ∈ p.initialPayment, ∀ swap ∈ p.convertSwap,
        h.Swaps tight pay.1.asset p.collateral.asset swap
  | swapDebt _ p => h.Swaps tight p.newDebt.asset p.existingDebt.asset p.swap
  | swapCollateral _ p => h.Swaps tight p.current.asset p.new.asset p.swap
  | repayDebtWithCollateral _ p => h.Swaps tight p.collateral.asset p.debt.asset p.swap
  | migrateFromBlend _ p => BlendSettles h tight p.blendPool
  | _ => True

theorem Strategies.Returns.whenNotPaused {x : Ctrl W α} (hx : Returns h tight x) :
    Returns h tight (whenNotPaused x) := fun due =>
  TillOnly.skip TillOnly.store fun _ => .assert fun _ => hx due

theorem Strategies.Returns.drop {x : Ctrl W α} (hx : Returns h tight x) :
    Returns h tight (do let _ ← x : Ctrl W Unit) := fun due =>
  Ends.bind (hx due) fun _ => Ends.pure fun _ hs => hs

theorem ControllerCall.body_returns (hh : h.Settling) {call : ControllerCall} {caller : Address}
    (hcall : call.strategist = some caller) (hne : caller ≠ h.controller)
    (hhonoured : call.Honoured h tight) : Returns h tight (call.body h timestamp) := by
  cases call with
  | flashPosition =>
    cases hcall
    exact .whenNotPaused (.drop (processFlashPosition_returns hh hne hhonoured))
  | multiply =>
    cases hcall
    exact .whenNotPaused (.drop (processMultiply_returns hh hne hhonoured.1 hhonoured.2))
  | swapDebt =>
    cases hcall
    exact .whenNotPaused (processSwapDebt_returns hh hne hhonoured)
  | swapCollateral =>
    cases hcall
    exact .whenNotPaused (processSwapCollateral_returns hh hne hhonoured)
  | repayDebtWithCollateral =>
    cases hcall
    exact .whenNotPaused (processRepayDebtWithCollateral_returns hh hne hhonoured)
  | migrateFromBlend =>
    cases hcall
    exact .whenNotPaused (.drop (processMigrateBlend_returns hh hne hhonoured))
  | _ => cases hcall

/-- Markets of a reachable system are stored under their own assets. -/
theorem System.Reachable.keyed {s : System W} (hs : s.Reachable h) : s.pool.Keyed := by
  obtain ⟨w, t₀, t₁, hsteps⟩ := hs
  intro key m hget
  obtain ⟨t, -, trace, hmarket⟩ :=
    ControllerSteps.markets h hsteps (System.deployed_markets w) key m hget
  exact hmarket.assetId

theorem ControllerCall.exec_covers {s s' : System W} (hs : s.Reachable h) (hh : h.Settling)
    {call : ControllerCall} {caller : Address} (hcall : call.strategist = some caller)
    (hne : caller ≠ h.controller) (hhonoured : call.Honoured h tight)
    (hexec : call.exec h timestamp s = .ok s') (token : Address) :
    Covers tight (h.till s.pool.world token) (h.till s'.pool.world token) := by
  obtain ⟨t, hbody, rfl⟩ := ControllerCall.exec_ok hexec
  have hstart : Escrowed h tight (h.till s.pool.world) { toSystem := s, cache := {} } :=
    ⟨hs.keyed, fun _ => .refl⟩
  have hreturns : Strategies.Returns h tight (call.body h timestamp) :=
    call.body_returns hh hcall hne hhonoured
  simpa using ((hreturns _).ok hstart hbody).till token

/-- **Strategies spend nothing of the controller's.** Whatever the router, Blend or a receiver
does beyond what it was authorised to take, a strategy that returns leaves the controller no less
of any token; and if they pay only in tokens that the strategy measures, it leaves exactly as
much, so that all that came in was deposited, repaid or refunded. -/
theorem strategies_spend_nothing {s s' : System W} (hs : s.Reachable h) (hh : h.Settling)
    {call : ControllerCall} {caller : Address} (hcall : call.strategist = some caller)
    (hne : caller ≠ h.controller) (hexec : call.exec h timestamp s = .ok s') :
    (call.Honoured h False → ∀ token, h.till s.pool.world token ≤ h.till s'.pool.world token) ∧
      (call.Honoured h True → h.till s'.pool.world = h.till s.pool.world) :=
  ⟨fun hhonoured token => (ControllerCall.exec_covers hs hh hcall hne hhonoured hexec token).le,
    fun hhonoured => funext fun token =>
      ((ControllerCall.exec_covers hs hh hcall hne hhonoured hexec token).eq trivial).symm⟩

namespace Sample

/-- The sample host with a router that pays token 8 for token 7, one for one. -/
def tradingHost : ControllerHost Balances :=
  { controllerHost with
    executeStrategy := fun w router sender amountIn _ => do
      moveTokens (← moveTokens w 7 sender router amountIn) 8 router sender amountIn }

theorem tradingHost_settling : tradingHost.Settling where
  delivers := controllerHost_delivers
  apart := by decide
  assign _ _ _ := rfl
  release _ _ := rfl

theorem tradingHost_swaps (swap : Strategies.StrategySwap) : tradingHost.Swaps True 7 8 swap := by
  intro w router amountIn w' hrun token hin hout
  obtain ⟨_, hspent, hpaid⟩ := Fallible.bind_ok hrun
  have hspent := controllerHost_delivers hspent token 2
  have hpaid := controllerHost_delivers hpaid token 2
  simp only [hin, hout, false_and, if_false, add_zero, sub_zero] at hspent hpaid
  exact .of_eq (hpaid.trans hspent).symm

/-- Borrows two of token 7 and trades them for token 8, to be deposited on top of ten of
these. -/
def leveraging : ControllerCall :=
  .multiply 5 ⟨0, 1, ⟨1, 8⟩, 20_000_000, key, .multiply, [0], some (⟨1, 8⟩, 100_000_000), none⟩

/-- The sample calls, and a second market. -/
def tradingCalls : List ControllerCall :=
  calls ++ [.setSwapAggregator 10, .createLiquidityPool 1 8 { params with assetId := 8 },
    .addAssetToSpoke { listingArgs with asset := 8 }]

end Sample

/-- A leveraged position is opened, and the controller holds what it held. -/
theorem strategies_spend_nothing_sample :
    ∃ s s' : System Sample.Balances, s.Reachable Sample.tradingHost ∧
      Sample.leveraging.exec Sample.tradingHost 1_000 s = .ok s' ∧
      ((s'.store.getSupplyPositions 3).get? ⟨1, 8⟩).isSome ∧
      Sample.tradingHost.till s'.pool.world = Sample.tradingHost.till s.pool.world := by
  obtain ⟨s, hrun, hany⟩ : ∃ s : System Sample.Balances,
      runCalls Sample.tradingHost 1_000 (.deployed Sample.opening) Sample.tradingCalls = .ok s ∧
      (runCalls Sample.tradingHost 1_000 s [Sample.leveraging]).toOption.any (fun s' =>
        ((s'.store.getSupplyPositions 3).get? ⟨1, 8⟩).isSome = true) = true :=
    runCalls_ok (by decide +kernel)
  obtain ⟨s', hrun', hsome⟩ := runCalls_ok hany
  have hs : s.Reachable Sample.tradingHost :=
    ⟨Sample.opening, 1_000, 1_000, runCalls_steps hrun⟩
  have hexec : Sample.leveraging.exec Sample.tradingHost 1_000 s = .ok s' := by
    obtain ⟨t, hexec, hrest⟩ := Fallible.bind_ok hrun'
    cases hrest
    exact hexec
  refine ⟨s, s', hs, hexec, hsome, (strategies_spend_nothing hs Sample.tradingHost_settling rfl
    (by decide) hexec).2 ⟨Sample.tradingHost_swaps _, ?_⟩⟩
  rintro pay - swap hswap
  cases hswap

end Lending
