import LendingXlm.Controller.Books

/-!
# The legs of a flow

A leg moves the shares of one market: the pool runs first and posts to its total, then the leg is
merged, which posts to the spoke's row and writes the position. While the pool is ahead, what it
has posted counts among the `others`, so a merged leg keeps `Holding` with that posting taken
out again.

* `applyLegUsage_keeps`: the row is posted by what the position changes, and an exit finds it;
* `mergeSupplyLeg_keeps`, `mergeWithdrawLeg_keeps`, `mergeDebtLeg_keeps`: one leg;
* `forEachLeg_keeps`: a batch.
-/

namespace Lending

open Transaction Ctrl Invocation Books

variable {W : Type} {h : ControllerHost W} {timestamp : Nat}

/-! ## Rules -/

/-- From `P`, exits stay covered, and `Q` holds when `x` returns. -/
def Keeps {α : Type} (P : Invocation W → Prop) (x : Ctrl W α) (Q : α → Invocation W → Prop) :
    Prop :=
  Triple ExitsCovered P x Q

theorem ReadsOnly.quiet {α : Type} {x : Ctrl W α} (hx : ReadsOnly h timestamp x) : QuietOnly x :=
  hx.mono fun _ _ hr => hr.quiet

namespace Keeps

variable {α β : Type} {P P' : Invocation W → Prop} {Q Q' : α → Invocation W → Prop}
  {x y : Ctrl W α} {f : α → Ctrl W β} {R : β → Invocation W → Prop}

theorem bind (hx : Keeps P x Q) (hf : ∀ a, Keeps (Q a) (f a) R) : Keeps P (x >>= f) R :=
  Triple.bind hx hf

theorem pure {a : α} (hQ : ∀ s, P s → Q a s) : Keeps P (pure a : Ctrl W α) Q :=
  Triple.pure fun s _ hs => hQ s hs

theorem throw {e : Error} : Keeps P (throw e : Ctrl W α) Q :=
  Triple.throw

theorem pre (hx : Keeps P' x Q) (himp : ∀ s, P s → P' s) : Keeps P x Q :=
  Triple.pre hx fun s _ hs => himp s hs

theorem post (hx : Keeps P x Q') (himp : ∀ a s, Q' a s → Q a s) : Keeps P x Q :=
  Triple.post hx fun a s _ hs => himp a s hs

theorem and (hx : Keeps P x Q) (hx' : Keeps P' x Q') :
    Keeps (fun s => P s ∧ P' s) x fun a s => Q a s ∧ Q' a s :=
  Triple.and hx hx'

theorem ite {c : Prop} [Decidable c] (hx : c → Keeps P x Q) (hy : ¬ c → Keeps P y Q) :
    Keeps P (if c then x else y) Q :=
  Triple.ite hx hy

theorem start (hx : ∀ s, P s → Keeps (· = s) x Q) : Keeps P x Q :=
  Triple.start fun s _ hs => hx s hs

/-- What does not depend on the state. -/
theorem fact {c : Prop} (hx : c → Keeps P x Q) : Keeps (fun s => P s ∧ c) x Q :=
  fun s hI hs => hx hs.2 s hI hs.1

/-- What the state says and that does not depend on it. -/
theorem knowing {c : Prop} (hc : ∀ s, P s → c) (hx : c → Keeps P x Q) : Keeps P x Q :=
  fun s hI hs => hx (hc s hs) s hI hs

theorem foldlM {P : β → List α → Invocation W → Prop} {f : β → α → Ctrl W β} {l : List α}
    (hf : ∀ b x rest, x ∈ l → Keeps (P b (x :: rest)) (f b x) fun b' => P b' rest) (b : β) :
    Keeps (P b l) (l.foldlM f b) fun b' => P b' [] :=
  Triple.foldlM hf b

theorem poolCall {f : PoolCtx W → Result (PoolCtx W × α)}
    (hf : ∀ s pool a, P s → f s.pool = .ok (pool, a) → Q a { s with pool }) :
    Keeps P (poolCall f) Q :=
  poolCall_triple fun s hI hs pool a hrun => ⟨hI, hf s pool a hs hrun⟩

theorem modifyStore {f : ControllerStore → ControllerStore} {Q : Unit → Invocation W → Prop}
    (hf : ∀ s, P s → Q () { s with store := f s.store }) : Keeps P (modifyStore f) Q :=
  Triple.modify fun s hI hs => ⟨hI, hf s hs⟩

theorem store {f : ControllerStore → Ctrl W β}
    (hf : ∀ st, Keeps (fun s => P s ∧ s.store = st) (f st) R) : Keeps P (store >>= f) R :=
  Triple.bind (Q := fun st s => P s ∧ s.store = st)
    (Triple.bind Triple.get fun _ => Triple.pure fun _ _ hs => ⟨hs.1, hs.2 ▸ rfl⟩) hf

theorem quiet (hP : Stable P) (hx : QuietOnly x) : Keeps P x fun _ => P :=
  hx.keeps (fun _ _ hq => hq.exitsCovered) fun s s' hq => hP s s' hq.toSilent

/-- A quiet step first. -/
theorem skip (hP : Stable P) (hx : QuietOnly x) (hf : ∀ a, Keeps P (f a) R) :
    Keeps P (x >>= f) R :=
  bind (quiet hP hx) hf

/-- A computation that reads only. -/
theorem reads (h : ControllerHost W) (timestamp : Nat) (hP : Stable P)
    (hx : ReadsOnly h timestamp x) : Keeps P x fun _ => P :=
  quiet hP hx.quiet

/-- A step that reads only. -/
theorem read (h : ControllerHost W) (timestamp : Nat) (hP : Stable P)
    (hx : ReadsOnly h timestamp x) (hf : ∀ a, Keeps P (f a) R) : Keeps P (x >>= f) R :=
  skip hP hx.quiet hf

theorem result {r : Result α} (hf : ∀ a, r = .ok a → Keeps P (f a) R) :
    Keeps P ((liftM r : Ctrl W α) >>= f) R :=
  Triple.bind Triple.lift fun a s hI hs => hf a hs.2 s hI hs.1

theorem unwrap {o : Option α} {e : Error} (hf : ∀ a, o = some a → Keeps P (f a) R) :
    Keeps P (unwrapOr o e >>= f) R :=
  result fun a ha => hf a (Fallible.orThrow_ok_iff.mp ha)

theorem assert {c : Prop} [Decidable c] {e : Error} {g : Unit → Ctrl W β}
    (hg : c → Keeps P (g ()) R) : Keeps P (assertWithError c e >>= g) R :=
  result fun _ ha => hg (Fallible.require_ok_iff.mp ha)

end Keeps

/-! ## Quiet steps -/

namespace Ctrl

theorem outside_outward {α : Type} {f : W → Result (W × α)} : OutwardOnly (outside f) := by
  intro s
  unfold outside poolCall
  rw [final_get_bind]
  dsimp only
  cases hf : f s.pool.world with
  | error e => exact Std.Refl.refl s
  | ok r => exact ⟨rfl, rfl, rfl, rfl⟩

/-- The flash-loan flag is nothing the invariant looks at. -/
theorem withFlashGuard_keeps {α : Type} {P : Invocation W → Prop} {Q : α → Invocation W → Prop}
    {f : Ctrl W α} (hP : Stable P) (hQ : ∀ a, Stable (Q a)) (hf : Keeps P f Q) :
    Keeps P (withFlashGuard f) Q := by
  refine .skip hP .get fun prev => .skip hP (.modify fun s => ⟨⟨rfl, rfl, rfl, .inl rfl⟩, rfl⟩)
    fun _ => .bind hf fun a => .ite (fun _ => ?_) fun _ => .pure fun _ hs => hs
  exact .skip (hQ a) (.modify fun s => ⟨⟨rfl, rfl, rfl, .inl rfl⟩, rfl⟩) fun _ =>
    .pure fun _ hs => hs

theorem store_outward : OutwardOnly (Ctrl.store : Ctrl W ControllerStore) :=
  .bind .get fun _ => .pure

theorem world_outward : OutwardOnly (world : Ctrl W W) :=
  .bind .get fun _ => .pure

end Ctrl

namespace Context

theorem putMarketIndex_quiet {market : HubAssetKey} {index : MarketIndex} :
    QuietOnly (putMarketIndex market index : Ctrl W Unit) :=
  .modify fun _ => ⟨⟨rfl, rfl, rfl, .inl rfl⟩, rfl⟩

theorem ensureSpokeContext_quiet {spokeId : Nat} :
    QuietOnly (ensureSpokeContext spokeId : Ctrl W SpokeUsageContext) := by
  intro s
  unfold ensureSpokeContext modifyCache
  rw [final_get_bind]
  split
  · exact Along.bind (R := Quiet) .lift (fun _ => .pure) s
  · rename_i hnone
    exact ⟨⟨rfl, rfl, rfl, .inr ⟨hnone, spokeId, rfl⟩⟩, rfl⟩

theorem requireSpokeAssetConfig_quiet {spokeId : Nat} {market : HubAssetKey} :
    QuietOnly (requireSpokeAssetConfig spokeId market : Ctrl W SpokeAssetConfig) :=
  .bind (.bind ensureSpokeContext_quiet fun _ => .bind store_outward.quiet fun _ => .pure) fun _ => .lift

end Context

/-! ## Usage rows -/

/-- `s'` is `s` with `d` shares posted to the row of a spoke. -/
structure Invocation.Posted (s s' : Invocation W) (spokeId : Nat) (side : UsageSide)
    (market : HubAssetKey) (d : Int) : Prop where
  system : s'.toSystem = s.toSystem
  recorded : s'.recorded = s.recorded + atSpoke spokeId side market d

/-- The row an invocation bound to the spoke reads. -/
theorem Invocation.recorded_row {s : Invocation W} {ctx : SpokeUsageContext}
    (hctx : s.cache.spokeUsage = some ctx) (side : UsageSide) (market : HubAssetKey) :
    s.recorded ⟨some ctx.spokeId, side, market⟩ = (ctx.row s.store market).elim 0 side.scaled := by
  simp [recorded, poolBooks, rowBooks, usageRow, hctx]

theorem UsageSide.scaled_default (side : UsageSide) (row : Option SpokeUsage) :
    side.scaled (row.getD {}) = row.elim 0 side.scaled := by
  cases row with
  | some usage => rfl
  | none => cases side <;> rfl

@[simp] theorem UsageSide.scaled_setScaled (side : UsageSide) (usage : SpokeUsage) (value : Int) :
    side.scaled (side.setScaled usage value) = value := by
  cases side <;> rfl

theorem UsageSide.scaled_setScaled_ne {side side' : UsageSide} (hne : side' ≠ side)
    (usage : SpokeUsage) (value : Int) :
    side'.scaled (side.setScaled usage value) = side'.scaled usage := by
  cases side <;> cases side' <;> first | rfl | exact absurd rfl hne

/-- Writing one side of a buffered row posts the difference. -/
theorem Invocation.posted_row {s : Invocation W} {ctx : SpokeUsageContext}
    (hctx : s.cache.spokeUsage = some ctx) (side : UsageSide) (market : HubAssetKey)
    (value : Int) :
    s.Posted { s with cache := { s.cache with spokeUsage := some { ctx with
        usage := ctx.usage.set market
          (side.setScaled ((ctx.row s.store market).getD {}) value) } } }
      ctx.spokeId side market (value - (ctx.row s.store market).elim 0 side.scaled) := by
  refine ⟨rfl, ?_⟩
  funext ⟨scope, side', market'⟩
  cases scope with
  | none => simp [recorded, poolBooks, rowBooks]
  | some id =>
    simp only [recorded, poolBooks, rowBooks, usageRow, Pi.add_apply, zero_add, hctx]
    by_cases hid : ctx.spokeId = id
    · subst hid
      simp only [if_true]
      unfold SpokeUsageContext.row
      dsimp only
      rw [SortedMap.get?_set]
      by_cases hm : market' = market
      · subst hm
        rw [if_pos rfl]
        by_cases hs : side' = side
        · subst hs
          simp [atSpoke]
        · have hne : (⟨some ctx.spokeId, side', market'⟩ : Line) ≠ ⟨some ctx.spokeId, side, market'⟩ := by
            simp [hs]
          rw [atSpoke, Pi.single_eq_of_ne hne, add_zero, Option.elim_some,
            UsageSide.scaled_setScaled_ne hs, UsageSide.scaled_default]
      · have hne : (⟨some ctx.spokeId, side', market'⟩ : Line) ≠ ⟨some ctx.spokeId, side, market⟩ := by
          simp [hm]
        rw [if_neg hm, atSpoke, Pi.single_eq_of_ne hne, add_zero]
    · have hne : (⟨some id, side', market'⟩ : Line) ≠ ⟨some ctx.spokeId, side, market⟩ := by
        simp [Ne.symm hid]
      rw [if_neg hid, if_neg hid, atSpoke, Pi.single_eq_of_ne hne, add_zero]

namespace Context

/-- The invocation is bound to the spoke, and the context it works with is the stored one. -/
theorem ensureSpokeContext_keeps {P : Invocation W → Prop} (hP : Stable P) {spokeId : Nat} :
    Keeps P (ensureSpokeContext spokeId) fun ctx s =>
      P s ∧ s.cache.spokeUsage = some ctx ∧ ctx.spokeId = spokeId := by
  refine Triple.bind Triple.get fun t => ?_
  split
  · rename_i ctx hctx
    refine Keeps.assert fun hid => .pure ?_
    rintro s ⟨hs, rfl⟩
    exact ⟨hs, hctx, hid⟩
  · rename_i hnone
    refine Triple.bind (Q := fun _ s => P s ∧ s.cache.spokeUsage = some (.new spokeId))
      (Triple.modify ?_) fun _ => Triple.pure fun s _ hs => ⟨hs.1, hs.2, rfl⟩
    rintro s hI ⟨hs, rfl⟩
    have hq : Quiet t { t with cache := { t.cache with spokeUsage := some (.new spokeId) } } :=
      ⟨⟨rfl, rfl, rfl, .inr ⟨hnone, spokeId, rfl⟩⟩, rfl⟩
    exact ⟨hq.exitsCovered hI, hP _ _ hq.toSilent hs, rfl⟩

/-- **Entry.** The row gains what enters. -/
theorem applySpokeEntry_keeps {P : Invocation W → Prop} {Q : Unit → Invocation W → Prop}
    (hP : Stable P) {spokeId : Nat} {side : UsageSide} {market : HubAssetKey} {d : Int}
    {index : MarketIndex} {decimals : Nat}
    (hQ : ∀ s s', P s → s.Posted s' spokeId side market d → Q () s') :
    Keeps P (applySpokeEntry spokeId side market d index decimals) Q := by
  refine .skip hP requireSpokeAssetConfig_quiet fun config => .bind (ensureSpokeContext_keeps hP)
    fun ctx => .store fun st => .result fun ctx' hentry => ?_
  refine Triple.modify ?_
  rintro s hI ⟨⟨hs, hctx, rfl⟩, rfl⟩
  refine ⟨hI, hQ s _ hs ?_⟩
  unfold SpokeUsageContext.applyEntry enforceSpokeCap Ray.checkedAdd at hentry
  simp only [Fallible.bind_ok_iff, Fallible.require_ok_iff, Fallible.pure_ok_iff,
    checkedAddRaw_ok_iff] at hentry
  obtain ⟨_, ⟨cap, -, next, ⟨-, rfl⟩, -, -, rfl⟩, rfl⟩ := hentry
  have hpost := s.posted_row hctx side market (side.scaled ((ctx.row s.store market).getD {}) + d)
  rwa [UsageSide.scaled_default, add_sub_cancel_left, ← UsageSide.scaled_default] at hpost

/-- **Exit.** A row that holds what leaves is found, and loses it. -/
theorem applySpokeExit_keeps {P : Invocation W → Prop} {Q : Unit → Invocation W → Prop}
    (hP : Stable P) {spokeId : Nat} {side : UsageSide} {market : HubAssetKey} {d : Int}
    (hd : 0 ≤ d) (hcover : ∀ s, P s → d ≤ s.recorded ⟨some spokeId, side, market⟩)
    (hQ : ∀ s s', P s → s.Posted s' spokeId side market (-d) → Q () s') :
    Keeps P (applySpokeExit spokeId side market d) Q := by
  refine .bind (ensureSpokeContext_keeps hP) fun ctx => .store fun st => ?_
  refine Triple.bind (Q := fun _ s => P s ∧ s.cache.spokeUsage = some ctx ∧
    ctx.spokeId = spokeId ∧ s.store = st) (Triple.modify ?_) fun _ =>
    Keeps.result fun ctx' hexit => Triple.modify ?_
  · rintro s hI ⟨⟨hs, hctx, rfl⟩, rfl⟩
    refine ⟨?_, hP s _ ⟨rfl, rfl, rfl, .inl rfl⟩ hs, hctx, rfl, rfl⟩
    have hle := hcover s hs
    rw [s.recorded_row hctx] at hle
    intro r hr
    dsimp only at hr
    by_cases hzero : d = 0
    · rw [if_pos hzero] at hr
      exact hI r hr
    · rw [if_neg hzero] at hr
      rcases List.mem_cons.mp hr with rfl | hr
      · cases hrow : ctx.row s.store market with
        | none =>
          rw [hrow, Option.elim_none] at hle
          omega
        | some usage =>
          rw [hrow, Option.elim_some] at hle
          exact ⟨usage, rfl, hle⟩
      · exact hI r hr
  · rintro s hI ⟨hs, hctx, rfl, rfl⟩
    refine ⟨hI, hQ s _ hs ?_⟩
    have hle := hcover s hs
    rw [s.recorded_row hctx] at hle
    unfold SpokeUsageContext.applyExit at hexit
    split at hexit
    · rename_i hzero
      rw [Fallible.pure_ok_iff] at hexit
      rw [← hexit, hzero, ← hctx]
      exact ⟨rfl, by simp [Ray.zero]⟩
    · rename_i hzero
      cases hrow : ctx.row s.store market with
      | none =>
        rw [hrow, Option.elim_none] at hle
        exact absurd (le_antisymm hle hd) hzero
      | some usage =>
        simp only [hrow, Fallible.bind_ok_iff, Fallible.require_ok_iff, Fallible.pure_ok_iff,
          Fallible.orThrow_ok_iff, I128.checkedSub_some] at hexit
        obtain ⟨next, ⟨-, rfl⟩, -, -, rfl⟩ := hexit
        have hpost := s.posted_row hctx side market (side.scaled usage - d)
        rwa [hrow, Option.elim_some, Option.getD_some, sub_sub_cancel_left] at hpost

end Context

/-! ## Postings of a leg -/

/-- **The row follows the position.** The pool has posted what the position changes by; the row
does so now, and the account may be written. -/
theorem Positions.applyLegUsage_keeps {base : System W} {others : Books} (a : Account)
    {side : UsageSide} {market : HubAssetKey} {direction : LegDirection} (outcome : LegOutcome) :
    Keeps
      (Holding base a.spokeId
        (others + atPool side market (outcome.newScaled - a.shares side market)) a)
      (applyLegUsage a.spokeId side market direction (a.shares side market) outcome)
      fun _ s => ∀ a', a.Becomes side market outcome.newScaled a' →
        Holding base a.spokeId others a' s := by
  have hpost : ∀ {s s' : Invocation W} {d : Int}, 0 ≤ outcome.newScaled →
      d = outcome.newScaled - a.shares side market →
      Holding base a.spokeId
        (others + atPool side market (outcome.newScaled - a.shares side market)) a s →
      s.Posted s' a.spokeId side market d → ∀ a', a.Becomes side market outcome.newScaled a' →
      Holding base a.spokeId others a' s' := by
    rintro s s' d h0 rfl hs hp a' hb
    refine ⟨?_, ?_, ?_, hb.spokeId, hb.positive h0 hs.positive, ?_, ?_⟩
    · rw [hp.system, hs.store]
    · rw [hp.system, hs.nft]
    · rw [hp.system, hs.decimals]
    · intro id side' market'
      have hrow := hs.rows id side' market'
      simpa using hrow
    · rw [hp.recorded, hs.books, hb.books, posting]
      abel
  cases direction with
  | entry assetDecimals =>
    refine .result fun d hd => Context.applySpokeEntry_keeps holding_stable ?_
    obtain ⟨h1, h0, h2, rfl⟩ := checkedSubNonneg_ok_iff.mp hd
    exact fun s s' hs hp => hpost h1 rfl hs hp
  | exit =>
    refine .result fun d hd => ?_
    obtain ⟨h0, h1, h2, rfl⟩ := checkedSubNonneg_ok_iff.mp hd
    refine Context.applySpokeExit_keeps holding_stable (by omega) ?_
      fun s s' hs hp => hpost h1 (by omega) hs hp
    intro s hs
    rw [hs.books]
    have hrow := hs.rows a.spokeId side market
    have hle : a.shares side market ≤ a.books ⟨some a.spokeId, side, market⟩ :=
      hs.positive.shares_le_books
    simp only [Pi.add_apply] at hrow ⊢
    omega

/-! ## Merging a leg -/

/-- A refresh leaves the shares of the position alone. -/
theorem Risk.refreshSupplyRiskParams_keeps {P : Invocation W → Prop} (hP : Stable P)
    {account : Account} {market : HubAssetKey} {position : AccountPosition} {config : AssetConfig}
    {scope : RiskRefreshScope} :
    Keeps P (refreshSupplyRiskParams h timestamp account market position config scope)
      fun p s => P s ∧ p.scaledAmount = position.scaledAmount := by
  refine .ite (fun _ => ?_) fun _ => .pure fun s hs => ⟨hs, rfl⟩
  refine .read h timestamp hP (.ite (.bind clearsMinHf_reads fun _ => .pure) .pure) fun refused => ?_
  exact .ite (fun _ => .pure fun s hs => ⟨hs, rfl⟩) fun _ => .pure fun s hs => ⟨hs, rfl⟩

theorem Account.scaled_getOrCreateSupplyPosition {a : Account} {market : HubAssetKey}
    {config : AssetConfig} :
    (a.getOrCreateSupplyPosition market config).scaledAmount = a.shares .supply market := by
  rw [getOrCreateSupplyPosition, shares, scaledOf]
  cases a.supplyPositions.get? market <;> rfl

theorem Account.scaled_getOrCreateDebtPosition {a : Account} {market : HubAssetKey} :
    (a.getOrCreateDebtPosition market).scaledAmount = a.shares .borrow market := by
  rw [getOrCreateDebtPosition, shares, scaledOf]
  cases a.borrowPositions.get? market <;> rfl

theorem Account.shares_of_supply {a : Account} {market : HubAssetKey} {p : AccountPosition}
    (hget : a.supplyPositions.get? market = some p) : a.shares .supply market = p.scaledAmount := by
  rw [shares, scaledOf, hget, Option.elim_some]

theorem Account.shares_of_debt {a : Account} {market : HubAssetKey} {p : DebtPosition}
    (hget : a.borrowPositions.get? market = some p) : a.shares .borrow market = p.scaledAmount := by
  rw [shares, scaledOf, hget, Option.elim_some]

namespace Positions

variable {base : System W} {others : Books} {a : Account}

theorem mergeSupplyLeg_keeps {action : PoolAction} {result : PoolPositionMutation} :
    Keeps
      (Holding base a.spokeId (others + atPool .supply action.hubAsset
        (result.position.scaledAmount - a.shares .supply action.hubAsset)) a)
      (mergeSupplyLeg h timestamp a action result)
      fun a' s => Holding base a.spokeId others a' s ∧
        a.Becomes .supply action.hubAsset result.position.scaledAmount a' := by
  refine .read h timestamp holding_stable Context.requireSpokeAsset_reads fun config =>
    .skip holding_stable Context.putMarketIndex_quiet fun _ =>
    .bind (Risk.refreshSupplyRiskParams_keeps holding_stable) fun position => .fact fun hscaled => ?_
  rw [Account.scaled_getOrCreateSupplyPosition]
  refine .bind (applyLegUsage_keeps a (.ofMutation result)) fun _ => .pure fun s hs => ?_
  have hb := a.updateOrRemoveSupplyPosition_becomes action.hubAsset position
  rw [hscaled] at hb
  exact ⟨hs _ hb, hb⟩

theorem mergeWithdrawLeg_keeps {market : HubAssetKey} {kind : WithdrawKind}
    (outcome : LegOutcome) :
    Keeps
      (Holding base a.spokeId (others + atPool .supply market
        (outcome.newScaled - a.shares .supply market)) a)
      (mergeWithdrawLeg h timestamp a market kind outcome)
      fun a' s => Holding base a.spokeId others a' s ∧
        a.Becomes .supply market outcome.newScaled a' := by
  refine .read h timestamp holding_stable legMayRestampRiskParams_reads fun mayRestamp =>
    .unwrap fun position hget => .skip holding_stable Context.putMarketIndex_quiet fun _ => ?_
  rw [← Account.shares_of_supply hget]
  have hstable : Stable fun s : Invocation W => ∀ a', a.Becomes .supply market outcome.newScaled a' →
      Holding base a.spokeId others a' s :=
    fun s s' hq hs a' hb => holding_stable s s' hq (hs a' hb)
  refine .bind (applyLegUsage_keeps a outcome) fun _ => .ite (fun _ => ?_) fun _ => .pure fun s hs => ?_
  · refine .read h timestamp hstable Context.requireSpokeAsset_reads fun config =>
      .bind (Risk.refreshSupplyRiskParams_keeps hstable) fun position => .pure fun s hs => ?_
    have hb := a.updateOrRemoveSupplyPosition_becomes market position
    rw [hs.2] at hb
    exact ⟨hs.1 _ hb, hb⟩
  · have hb := a.updateOrRemoveSupplyPosition_becomes market
      { position with scaledAmount := outcome.newScaled }
    exact ⟨hs _ hb, hb⟩

theorem mergeDebtLeg_keeps {market : HubAssetKey} {direction : LegDirection}
    (outcome : LegOutcome) :
    Keeps
      (Holding base a.spokeId (others + atPool .borrow market
        (outcome.newScaled - a.shares .borrow market)) a)
      (mergeDebtLeg a market direction outcome)
      fun a' s => Holding base a.spokeId others a' s ∧
        a.Becomes .borrow market outcome.newScaled a' := by
  have hstable : Stable fun s : Invocation W => ∀ a', a.Becomes .borrow market outcome.newScaled a' →
      Holding base a.spokeId others a' s :=
    fun s s' hq hs a' hb => holding_stable s s' hq (hs a' hb)
  refine .bind (Q := fun old s => Holding base a.spokeId (others + atPool .borrow market
    (outcome.newScaled - a.shares .borrow market)) a s ∧ old = a.shares .borrow market) ?_
    fun old => .fact fun hold => ?_
  · cases direction with
    | entry assetDecimals =>
      exact .pure fun s hs => ⟨hs, Account.scaled_getOrCreateDebtPosition⟩
    | exit =>
      exact .unwrap fun position hget => .pure fun s hs => ⟨hs, (Account.shares_of_debt hget).symm⟩
  · rw [hold]
    refine .bind (applyLegUsage_keeps a outcome) fun _ => .skip hstable Context.putMarketIndex_quiet fun _ =>
      .pure fun s hs => ?_
    have hb := a.updateOrRemoveDebtPosition_becomes market ⟨outcome.newScaled⟩
    exact ⟨hs _ hb, hb⟩

end Positions

/-! ## Batches -/

/-- A leg as the books see it. -/
structure Leg where
  market : HubAssetKey
  old : Int
  new : Int

/-- What the pool has posted and the rows have not. -/
def pending (side : UsageSide) (legs : List Leg) : Books :=
  (legs.map fun leg => atPool side leg.market (leg.new - leg.old)).sum

@[simp] theorem pending_some {side : UsageSide} {legs : List Leg} {id : Nat} {side' : UsageSide}
    {market : HubAssetKey} : pending side legs ⟨some id, side', market⟩ = 0 := by
  induction legs with
  | nil => rfl
  | cons leg legs ih =>
    have hcons : pending side (leg :: legs) =
        atPool side leg.market (leg.new - leg.old) + pending side legs := rfl
    rw [hcons, Pi.add_apply, atPool_some, ih, add_zero]

/-- The pool posts to its totals while an account is in hand. -/
theorem Holding.pool_moved {base : System W} {spokeId : Nat} {others delta : Books} {a : Account}
    {s : Invocation W} {pool : PoolCtx W} (hs : Holding base spokeId others a s)
    (hbooks : poolBooks pool.markets = poolBooks s.pool.markets + delta)
    (hrows : ∀ id side market, delta ⟨some id, side, market⟩ = 0)
    (hdec : pool.decimals = s.pool.decimals) :
    Holding base spokeId (others + delta) a { s with pool } where
  store := hs.store
  nft := hs.nft
  decimals := hdec.trans hs.decimals
  spoke := hs.spoke
  positive := hs.positive
  rows id side market := by
    rw [Pi.add_apply, hrows, add_zero]
    exact hs.rows id side market
  books := by
    have hrec : Invocation.recorded { s with pool } = s.recorded + delta := by
      show poolBooks pool.markets + rowBooks s.usageRow = _
      rw [hbooks, Invocation.recorded]
      abel
    rw [hrec, hs.books]
    abel

/-- A leg of a pool batch: it posts to the total of its market what its position changes by. -/
structure PostsBatch {E : Type} (market : E → HubAssetKey) (old : E → Int) (side : UsageSide)
    (leg : PoolCtx W → E → Result (PoolCtx W × PoolPositionMutation)) : Prop where
  posts : ∀ {s s' e r}, leg s e = .ok (s', r) →
    poolBooks s'.markets =
      poolBooks s.markets + atPool side (market e) (r.position.scaledAmount - old e) ∧
    s'.decimals = s.decimals

/-- The totals a batch has posted; no market occurs twice in it. -/
theorem Ops.runBatch_books {E : Type} {market : E → HubAssetKey} {old : E → Int} {side : UsageSide}
    {leg : PoolCtx W → E → Result (PoolCtx W × PoolPositionMutation)}
    (hleg : PostsBatch market old side leg)
    {entries : List E} {seen : List HubAssetKey} {s s' : PoolCtx W}
    {rs : List PoolPositionMutation}
    (hrun : runBatch market true leg seen s entries = .ok (s', rs)) :
    poolBooks s'.markets = poolBooks s.markets + pending side
      ((entries.zip rs).map fun e => ⟨market e.1, old e.1, e.2.position.scaledAmount⟩) ∧
    s'.decimals = s.decimals ∧ ((entries.zip rs).map fun e => market e.1).Nodup ∧
    ∀ e ∈ entries, market e ∉ seen := by
  induction entries generalizing s seen rs with
  | nil =>
    obtain ⟨rfl, rfl⟩ := runBatch_nil hrun
    exact ⟨(add_zero _).symm, rfl, List.nodup_nil, fun e he => by cases he⟩
  | cons e entries ih =>
    obtain ⟨s1, r, rs1, h1, huniq, hrest, rfl⟩ := runBatch_cons hrun
    obtain ⟨hbooks1, hdec1⟩ := hleg.posts h1
    obtain ⟨hbooks, hdec, hnodup, hseen⟩ := ih hrest
    refine ⟨?_, hdec.trans hdec1, ?_, ?_⟩
    · rw [hbooks, hbooks1, List.zip_cons_cons, List.map_cons, pending, pending, List.map_cons,
        List.sum_cons, add_assoc]
    · rw [List.zip_cons_cons, List.map_cons, List.nodup_cons]
      refine ⟨fun hmem => ?_, hnodup⟩
      obtain ⟨e', he', heq⟩ := List.mem_map.mp hmem
      exact hseen e'.1 (List.of_mem_zip he').1 (heq ▸ List.mem_cons_self)
    · intro e' he'
      rcases List.mem_cons.mp he' with rfl | he'
      · simpa using huniq
      · exact fun hmem => hseen e' he' (List.mem_cons_of_mem _ hmem)

/-- **A batch.** Merging every leg brings the rows and the account to where the pool is. -/
theorem Positions.forEachLeg_keeps {E R : Type} {entries : List E} {results : List R}
    {f : Account → E × R → Ctrl W Account} {side : UsageSide}
    {room : Finset HubAssetKey} {base : System W} (others : Books) {a : Account}
    (leg : E × R → Leg)
    (hnodup : ((entries.zip results).map fun e => (leg e).market).Nodup)
    (hold : ∀ e ∈ entries.zip results, (leg e).old = a.shares side (leg e).market)
    (hroom : ∀ e ∈ entries.zip results, (leg e).market ∈ room) (hkeys : a.keysOf side ⊆ room)
    (hf : ∀ others b e, e ∈ entries.zip results →
      Keeps (Holding base b.spokeId (others + atPool side (leg e).market
          ((leg e).new - b.shares side (leg e).market)) b) (f b e)
        fun b' s => Holding base b.spokeId others b' s ∧
          b.Becomes side (leg e).market (leg e).new b') :
    Keeps (Holding base a.spokeId (others + pending side ((entries.zip results).map leg)) a)
      (forEachLeg entries results f a)
      fun a' s => Holding base a.spokeId others a' s ∧
        a'.keysOf side ⊆ room ∧ a.SameBesides side a' := by
  refine .assert fun _ => ?_
  -- Each leg still finds the shares it was planned with, since no later leg is on its market.
  have hloop := Keeps.foldlM (l := entries.zip results) (f := f)
    (P := fun b rest s => Holding base a.spokeId (others + pending side (rest.map leg)) b s ∧
      ((rest.map fun e => (leg e).market).Nodup ∧
        (∀ e ∈ rest, (leg e).old = b.shares side (leg e).market) ∧
        b.keysOf side ⊆ room ∧ a.SameBesides side b)) ?_ a
  · refine (hloop.pre fun s hs => ⟨hs, hnodup, hold, hkeys, .refl⟩).post ?_
    rintro a' s ⟨hs, -, -, hk, hb⟩
    have hzero : others + pending side (([] : List (E × R)).map leg) = others := add_zero _
    rw [hzero] at hs
    exact ⟨hs, hk, hb⟩
  · intro b e rest he
    refine .fact fun ⟨hnd, hshares, hk, hbes⟩ => ?_
    rw [List.map_cons, List.nodup_cons] at hnd
    refine .start fun t ht => ?_
    obtain hspoke := ht.spoke
    have hstep := hf (others + pending side (rest.map leg)) b e he
    rw [hspoke, ← hshares e List.mem_cons_self] at hstep
    refine (hstep.pre ?_).post ?_
    · rintro s rfl
      have hcons : others + pending side ((e :: rest).map leg) =
          others + pending side (rest.map leg) +
            atPool side (leg e).market ((leg e).new - (leg e).old) := by
        rw [List.map_cons, pending, List.map_cons, List.sum_cons, ← pending]
        abel
      rw [← hcons]
      exact ht
    · rintro b' s ⟨hs, hb⟩
      refine ⟨hs, hnd.2, ?_, ?_, hbes.trans hb.besides⟩
      · intro e' he'
        rw [hb.shares_ne]
        · exact hshares e' (List.mem_cons_of_mem _ he')
        · exact fun heq => hnd.1 (heq ▸ List.mem_map_of_mem he')
      · intro k hk'
        rcases hb.keys side k hk' with hk' | ⟨-, rfl⟩
        · exact hk hk'
        · exact hroom e he

end Lending
