import LendingXlm.Controller.Holdings
import LendingXlm.Controller.Sovereignty
import LendingXlm.DefindexStrategy.Contract

/-!
# Vaults do not touch each other

Every vault has an account of its own, which the strategy holds for it. What a vault has there is
taken out by that vault only, whatever the other vaults and everybody else do.

* `deposit_ok`, `withdraw_ok`: what the two entrypoints have the controller do, and on whose
  account;
* `State.Isolated`: the accounts are apart, held by the strategy, granted to nobody, and owe
  nothing;
* `StrategyStep.isolated`, `StrategyStep.spares`: every step keeps that, and the shares of every
  vault that does not withdraw.
-/

namespace Lending.DefindexStrategy

open Transaction Ctrl Invocation

variable {W : Type} {h : ControllerHost W} {timestamp : Nat} {strategy : Address}
  {s s' : State W} {cfg : Config}

/-! ## Calls of the controller -/

section Client

variable {α : Type} {controller : Address} {x : Ctrl W α} {a : α} {r : Except Error α}

theorem tryClient_ok (hrun : tryClient h controller x s = .ok r s') :
    (∃ a t, r = .ok a ∧ x { toSystem := s.toSystem, cache := {} } = .ok a t ∧
      s' = { s with toSystem := t.toSystem }) ∨ (∃ e, r = .error e) ∧ s' = s := by
  unfold tryClient at hrun
  split at hrun
  · split at hrun
    · rename_i a t hx
      cases hrun
      exact .inl ⟨a, t, rfl, hx, rfl⟩
    · cases hrun
      exact .inr ⟨⟨_, rfl⟩, rfl⟩
  · cases hrun
    exact .inr ⟨⟨_, rfl⟩, rfl⟩

/-- A failure of a callee is the strategy's. -/
theorem callee_ok {x : Result α} (hrun : (liftM x : Strat W α) s = .ok a s') :
    x = .ok a ∧ s = s' := by
  cases x with
  | ok b =>
    cases hrun
    exact ⟨rfl, rfl⟩
  | error e => cases hrun

theorem client_ok (hrun : client h controller x s = .ok a s') :
    ∃ t, x { toSystem := s.toSystem, cache := {} } = .ok a t ∧
      s' = { s with toSystem := t.toSystem } := by
  obtain ⟨r, t, htry, hrun⟩ := bind_ok_iff.mp hrun
  obtain ⟨rfl, rfl⟩ := callee_ok hrun
  rcases tryClient_ok htry with ⟨b, u, hb, hx, hs⟩ | ⟨⟨e, he⟩, -⟩
  · cases hb
    exact ⟨u, hx, hs⟩
  · cases he

/-- A view leaves everything as it is. -/
theorem client_view (hx : ContextOnly x) (hrun : client h controller x s = .ok a s') : s = s' := by
  obtain ⟨t, hx', rfl⟩ := client_ok hrun
  rw [show t.toSystem = s.toSystem from hx.ok hx']

end Client

section Storage

variable {vault : Address} {id : Nat}

theorem accountExists_ok {t t' : Invocation W} {found : Bool}
    (hrun : Views.accountExists id t = .ok found t') :
    found = (t.store.metas.get? id).isSome ∧ t = t' := by
  obtain ⟨st, u, hst, hrun⟩ := bind_ok_iff.mp hrun
  obtain ⟨v, u', hget, hst⟩ := bind_ok_iff.mp hst
  obtain ⟨rfl, rfl⟩ := get_ok_iff.mp hget
  obtain ⟨rfl, rfl⟩ := pure_ok_iff.mp hst
  obtain ⟨rfl, rfl⟩ := pure_ok_iff.mp hrun
  exact ⟨rfl, rfl⟩

theorem collateral_same {r : Int} (hrun : collateral h timestamp cfg id s = .ok r s') :
    s = s' := by
  refine client_view ?_ hrun
  refine .bind (.bind .get fun _ => .pure) fun st => ?_
  split
  · exact .pure
  · exact .bind (ContextOnly.of_reads h timestamp Context.cachedMarketIndex_reads) fun _ =>
      .bind (ContextOnly.of_reads h timestamp Context.cachedPoolSyncData_reads) fun _ => .lift

theorem config_ok (hrun : config s = .ok cfg s') : s.config = some cfg ∧ s = s' := by
  obtain ⟨t, t', hget, hrun⟩ := bind_ok_iff.mp hrun
  obtain ⟨rfl, rfl⟩ := get_ok_iff.mp hget
  obtain ⟨hc, rfl⟩ := lift_ok_iff.mp hrun
  exact ⟨Fallible.orThrow_ok_iff.mp hc, rfl⟩

theorem ensure_ok {c : Prop} [Decidable c] {e : StrategyError} {u : Unit}
    (hrun : Strat.ensure c e s = .ok u s') : c ∧ s = s' := by
  obtain ⟨hc, rfl⟩ := lift_ok_iff.mp hrun
  exact ⟨Fallible.require_ok_iff.mp hc, rfl⟩

/-- **The vault's account** is the one stored for it, as long as the controller has it. -/
theorem resolveVaultAccount_ok {clearIfGone : Bool}
    (hrun : resolveVaultAccount h cfg vault clearIfGone s = .ok id s') :
    s'.toSystem = s.toSystem ∧ (clearIfGone = false → s = s') ∧
      (∀ other ≠ vault, s'.vaultAccounts.get? other = s.vaultAccounts.get? other) ∧
      (id ≠ 0 → s.vaultAccounts.get? vault = some id) ∧
      (id = 0 → ∀ old, s.vaultAccounts.get? vault = some old →
        old = 0 ∨ s.store.metas.get? old = none) := by
  obtain ⟨t, t', hget, hrun⟩ := bind_ok_iff.mp hrun
  obtain ⟨rfl, rfl⟩ := get_ok_iff.mp hget
  by_cases hzero : (s.vaultAccounts.get? vault).getD 0 = 0
  · rw [if_pos hzero] at hrun
    obtain ⟨rfl, rfl⟩ := pure_ok_iff.mp hrun
    refine ⟨rfl, fun _ => rfl, fun _ _ => rfl, fun hne => absurd rfl hne, fun _ old hold => .inl ?_⟩
    rwa [hold] at hzero
  · rw [if_neg hzero] at hrun
    obtain ⟨stored, hstored⟩ : ∃ stored, s.vaultAccounts.get? vault = some stored := by
      cases hget : s.vaultAccounts.get? vault with
      | some stored => exact ⟨stored, rfl⟩
      | none => exact absurd (by rw [hget]; rfl) hzero
    rw [hstored] at hrun hzero
    obtain ⟨answer, t, htry, hrun⟩ := bind_ok_iff.mp hrun
    obtain ⟨found, t', hunwrap, hrun⟩ := bind_ok_iff.mp hrun
    obtain ⟨hsome, rfl⟩ := lift_ok_iff.mp hunwrap
    have hfound := Fallible.orThrow_ok_iff.mp hsome
    rcases tryClient_ok htry with ⟨b, u, rfl, hx, rfl⟩ | ⟨⟨e, rfl⟩, -⟩
    · obtain ⟨hb, rfl⟩ := accountExists_ok hx
      obtain rfl : b = found := Option.some.inj hfound
      split at hrun
      · obtain ⟨rfl, rfl⟩ := pure_ok_iff.mp hrun
        exact ⟨rfl, fun _ => rfl, fun _ _ => rfl, fun _ => hstored, fun h0 => absurd h0 hzero⟩
      · rename_i hgone
        have hnone : s.store.metas.get? stored = none := by
          rw [hb] at hgone
          exact Option.not_isSome_iff_eq_none.mp hgone
        have hold : ∀ old, s.vaultAccounts.get? vault = some old →
            old = 0 ∨ s.store.metas.get? old = none := by
          intro old hold
          obtain rfl := Option.some.inj (hold.symm.trans hstored)
          exact .inr hnone
        split at hrun
        · rename_i hclears
          obtain ⟨_, _, hclear, hrun⟩ := bind_ok_iff.mp hrun
          obtain rfl := modify_ok_iff.mp hclear
          obtain ⟨rfl, rfl⟩ := pure_ok_iff.mp hrun
          exact ⟨rfl, fun hfalse => Bool.noConfusion (hclears.symm.trans hfalse), fun other hne =>
            SortedMap.get?_erase_ne _ hne, fun hne => absurd rfl hne, fun _ => hold⟩
        · obtain ⟨rfl, rfl⟩ := pure_ok_iff.mp hrun
          exact ⟨rfl, fun _ => rfl, fun _ _ => rfl, fun hne => absurd rfl hne, fun _ => hold⟩
    · cases hfound

end Storage

/-! ## The entrypoints -/

theorem pullFromVault_ok {vault : Address} {amount received : Int}
    (hrun : pullFromVault h strategy cfg vault amount s = .ok received s') :
    ∃ w, h.transferAmountMeasured s.pool.world cfg.asset vault strategy amount
        .amountMustBePositive = .ok (w, received) ∧ s' = { s with pool.world := w } := by
  obtain ⟨t, t', hget, hrun⟩ := bind_ok_iff.mp hrun
  obtain ⟨rfl, rfl⟩ := get_ok_iff.mp hget
  obtain ⟨⟨w, r⟩, t', hlift, hrun⟩ := bind_ok_iff.mp hrun
  obtain ⟨hmove, rfl⟩ := callee_ok hlift
  obtain ⟨_, _, hset, hrun⟩ := bind_ok_iff.mp hrun
  obtain rfl := modify_ok_iff.mp hset
  obtain ⟨rfl, rfl⟩ := pure_ok_iff.mp hrun
  exact ⟨w, hmove, rfl⟩

/-- A supply that returned is a call of the controller. -/
theorem supply_exec {t : System W} {u : Invocation W} {accountId spokeId id : Nat}
    {payments : List HubPayment}
    (hrun : Governance.whenNotPaused (Positions.processSupply h timestamp strategy accountId spokeId
      payments) { toSystem := t, cache := {} } = .ok id u) :
    (ControllerCall.supply strategy accountId spokeId payments).exec h timestamp t =
      .ok u.toSystem := by
  have hbody : (ControllerCall.supply strategy accountId spokeId payments).body h timestamp
      { toSystem := t, cache := {} } = .ok () u := by
    obtain ⟨st, t1, hstore, hrun⟩ := bind_ok_iff.mp hrun
    obtain ⟨_, t2, hassert, hrun⟩ := bind_ok_iff.mp hrun
    exact bind_ok_iff.mpr ⟨st, t1, hstore, bind_ok_iff.mpr ⟨_, t2, hassert,
      bind_ok_iff.mpr ⟨id, u, hrun, rfl⟩⟩⟩
  unfold ControllerCall.exec
  rw [hbody]

theorem withdraw_exec {t : System W} {u : Invocation W} {accountId : Nat} {recipient : Address}
    {payments paid : List HubPayment}
    (hrun : Positions.processWithdraw h timestamp strategy accountId payments (some recipient)
      { toSystem := t, cache := {} } = .ok paid u) :
    (ControllerCall.withdraw strategy accountId payments (some recipient)).exec h timestamp t =
      .ok u.toSystem := by
  have hbody : (ControllerCall.withdraw strategy accountId payments (some recipient)).body h
      timestamp { toSystem := t, cache := {} } = .ok () u :=
    bind_ok_iff.mpr ⟨paid, u, hrun, rfl⟩
  unfold ControllerCall.exec
  rw [hbody]

/-- An account that is opened gets the next id, and the counter is past it. -/
theorem loadOrCreateAccount_counts {base : System W} {caller : Address} {accountId spokeId : Nat}
    {mode : PositionMode} {guard : Account.AccountGuard} :
    Leaves (Reading h timestamp base)
      (Account.loadOrCreateAccount h caller accountId spokeId mode guard) fun r s =>
        r.1 = Account.openedId base.nft accountId ∧
          (accountId = 0 → r.1 < s.nft.nextTokenId) := by
  refine Ends.ite (fun hzero => Leaves.assert fun _ =>
    .read Context.activeSpoke_reads fun _ => ?_) fun hne =>
    Leaves.read Storage.getAccount_reads fun _ => Leaves.read Account.requireGuard_reads fun _ =>
    Ends.pure fun _ _ => ⟨(if_neg hne).symm, fun hzero => absurd hzero hne⟩
  refine Ends.bind (Q := fun id s => id = base.nft.nextTokenId ∧ id < s.nft.nextTokenId) ?_
    fun id => Ends.bind (Q := fun _ s => id = base.nft.nextTokenId ∧ id < s.nft.nextTokenId)
      (Ends.modify fun _ hs => hs) fun _ => Ends.pure fun _ hs =>
        ⟨hs.1.trans (if_pos hzero).symm, fun _ => hs.2⟩
  refine Ends.get_bind fun t ht => Leaves.assert fun _ =>
    Ends.bind (Q := fun _ s => t.nft.nextTokenId < s.nft.nextTokenId)
      (Ends.modify ?_) fun _ => Ends.pure fun _ hs =>
        ⟨congrArg (fun b : System W => b.nft.nextTokenId) ht.system, hs⟩
  rintro u rfl
  exact Nat.lt_succ_self _

/-- A supply that returned names the account it opened, or the one it was told. -/
theorem supply_returns {t : System W} {u : Invocation W} {accountId spokeId id : Nat}
    {payments : List HubPayment}
    (hrun : Governance.whenNotPaused (Positions.processSupply h timestamp strategy accountId spokeId
      payments) { toSystem := t, cache := {} } = .ok id u) :
    id = Account.openedId t.nft accountId ∧ (accountId = 0 → id < u.nft.nextTokenId) := by
  have hleaves : Leaves (Reading h timestamp t) (Governance.whenNotPaused
      (Positions.processSupply h timestamp strategy accountId spokeId payments)) fun id s =>
        id = Account.openedId t.nft accountId ∧ (accountId = 0 → id < s.nft.nextTokenId) := by
    refine Governance.whenNotPaused_reading <| .read Risk.requireNotFlashLoaning_reads fun _ =>
      .result fun _ _ => Ends.bind loadOrCreateAccount_counts fun r => ?_
    -- The rest leaves the counter where it is, or moves it on.
    have hkeeps : ∀ {α : Type} {x : Ctrl W α},
        Performs h timestamp (some strategy) none x →
        Leaves (fun s => r.1 = Account.openedId t.nft accountId ∧
          (accountId = 0 → r.1 < s.nft.nextTokenId)) x fun _ s =>
          r.1 = Account.openedId t.nft accountId ∧ (accountId = 0 → r.1 < s.nft.nextTokenId) :=
      fun hx => hx.keeps fun _ _ hacts hs =>
        ⟨hs.1, fun hzero => (hs.2 hzero).trans_le hacts.acts.counter⟩
    exact Ends.bind
      (hkeeps (Performs.reads Positions.requireThirdPartyExistingSupply_reads)) fun _ =>
      Ends.bind (hkeeps Positions.processDeposit_performs) fun _ =>
      Ends.bind (hkeeps Positions.finalizePositionFlow_performs) fun _ =>
      Ends.pure fun _ hs => hs
  exact hleaves.ok ⟨rfl, quoted_fresh rfl rfl⟩ hrun

/-- **A deposit** supplies what the strategy pulled to the vault's account, which is its stored one
or, if there is none any more, a new one. -/
theorem deposit_ok {amount r : Int} {vault : Address}
    (hrun : deposit h timestamp strategy amount vault s = .ok r s') :
    ∃ cfg w received stored id u, s.config = some cfg ∧
      h.transferAmountMeasured s.pool.world cfg.asset vault strategy amount
        .amountMustBePositive = .ok (w, received) ∧
      (stored ≠ 0 → s.vaultAccounts.get? vault = some stored) ∧
      (stored = 0 → ∀ old, s.vaultAccounts.get? vault = some old →
        old = 0 ∨ s.store.metas.get? old = none) ∧
      Governance.whenNotPaused (Positions.processSupply h timestamp strategy stored cfg.spokeId
        (cfg.toPayment received))
        { toSystem := { s.toSystem with pool.world := w }, cache := {} } = .ok id u ∧
      s'.toSystem = u.toSystem ∧ s'.vaultAccounts.get? vault = some id ∧
      ∀ other ≠ vault, s'.vaultAccounts.get? other = s.vaultAccounts.get? other := by
  obtain ⟨_, s0, hpos, hrun⟩ := bind_ok_iff.mp hrun
  obtain ⟨-, rfl⟩ := ensure_ok hpos
  obtain ⟨cfg, s0, hload, hrun⟩ := bind_ok_iff.mp hrun
  obtain ⟨hcfg, rfl⟩ := config_ok hload
  obtain ⟨received, s1, hpull, hrun⟩ := bind_ok_iff.mp hrun
  obtain ⟨w, hmove, rfl⟩ := pullFromVault_ok hpull
  obtain ⟨stored, s2, hresolve, hrun⟩ := bind_ok_iff.mp hrun
  obtain ⟨hsame, -, hother, hstored, hgone⟩ := resolveVaultAccount_ok hresolve
  obtain ⟨id, s3, hclient, hrun⟩ := bind_ok_iff.mp hrun
  obtain ⟨u, hsupply, rfl⟩ := client_ok hclient
  obtain ⟨_, s4, hset, hrun⟩ := bind_ok_iff.mp hrun
  obtain rfl := modify_ok_iff.mp hset
  obtain rfl := collateral_same hrun
  rw [hsame] at hsupply
  exact ⟨cfg, w, received, stored, id, u, hcfg, hmove, hstored, hgone, hsupply, rfl,
    SortedMap.get?_set_self .., fun other hne =>
      (SortedMap.get?_set_ne _ _ hne).trans (hother other hne)⟩

/-- **A withdrawal** is from the vault's stored account, whose mapping it may drop. -/
theorem withdraw_ok {amount r : Int} {vault recipient : Address}
    (hrun : withdraw h timestamp strategy amount vault recipient s = .ok r s') :
    ∃ id payments paid u, s.vaultAccounts.get? vault = some id ∧
      Positions.processWithdraw h timestamp strategy id payments (some recipient)
        { toSystem := s.toSystem, cache := {} } = .ok paid u ∧
      s'.toSystem = u.toSystem ∧
      (s'.vaultAccounts = s.vaultAccounts ∨ s'.vaultAccounts = s.vaultAccounts.erase vault) := by
  obtain ⟨_, s0, hpos, hrun⟩ := bind_ok_iff.mp hrun
  obtain ⟨-, rfl⟩ := ensure_ok hpos
  obtain ⟨cfg, s0, hload, hrun⟩ := bind_ok_iff.mp hrun
  obtain ⟨hcfg, rfl⟩ := config_ok hload
  obtain ⟨id, s1, hresolve, hrun⟩ := bind_ok_iff.mp hrun
  obtain ⟨-, hsame, -, hstored, -⟩ := resolveVaultAccount_ok hresolve
  obtain rfl := hsame rfl
  obtain ⟨_, s2, hensure, hrun⟩ := bind_ok_iff.mp hrun
  obtain ⟨hne, rfl⟩ := ensure_ok hensure
  obtain ⟨balance, s2, hbalance, hrun⟩ := bind_ok_iff.mp hrun
  obtain rfl := collateral_same hbalance
  obtain ⟨_, s3, hensure, hrun⟩ := bind_ok_iff.mp hrun
  obtain ⟨-, rfl⟩ := ensure_ok hensure
  obtain ⟨paid, s4, hclient, hrun⟩ := bind_ok_iff.mp hrun
  obtain ⟨u, hwithdraw, rfl⟩ := client_ok hclient
  refine ⟨id, _, paid, u, hstored hne, hwithdraw, ?_⟩
  split at hrun
  · obtain ⟨_, s5, hclear, hrun⟩ := bind_ok_iff.mp hrun
    obtain rfl := modify_ok_iff.mp hclear
    obtain rfl := collateral_same hrun
    exact ⟨rfl, .inr rfl⟩
  · obtain rfl := collateral_same hrun
    exact ⟨rfl, .inl rfl⟩

theorem construct_ok {asset : Address} {initArgs : List Val} {u : Unit}
    (hrun : construct h timestamp asset initArgs s = .ok u s') :
    s'.toSystem = s.toSystem ∧ s'.vaultAccounts = s.vaultAccounts := by
  obtain ⟨controller, s0, hload, hrun⟩ := bind_ok_iff.mp hrun
  obtain ⟨-, rfl⟩ := lift_ok_iff.mp hload
  obtain ⟨hubId, s0, hload, hrun⟩ := bind_ok_iff.mp hrun
  obtain ⟨-, rfl⟩ := lift_ok_iff.mp hload
  obtain ⟨spokeId, s0, hload, hrun⟩ := bind_ok_iff.mp hrun
  obtain ⟨-, rfl⟩ := lift_ok_iff.mp hload
  obtain ⟨_, s0, hview, hrun⟩ := bind_ok_iff.mp hrun
  obtain rfl := client_view (.of_reads h timestamp Context.cachedMarketIndex_reads) hview
  obtain ⟨_, s0, hview, hrun⟩ := bind_ok_iff.mp hrun
  obtain rfl := client_view (.bind (.bind .get fun _ => .pure) fun _ => .lift) hview
  obtain ⟨_, s0, hview, hrun⟩ := bind_ok_iff.mp hrun
  obtain rfl := client_view (.bind (.bind .get fun _ => .pure) fun _ => .lift) hview
  obtain rfl := modify_ok_iff.mp hrun
  exact ⟨rfl, rfl⟩

/-! ## Runs -/

/-- The system as deployed, before the strategy is constructed. -/
def State.deployed (w : W) : State W :=
  { System.deployed w with config := none, vaultAccounts := .empty }

/-- One step of a run in which only the vaults that `may` withdraw. Everybody else calls the
controller, and the world outside keeps the strategy's tokens. -/
inductive StrategyStep (h : ControllerHost W) (strategy : Address) (may : Address → Prop) :
    State W × Nat → State W × Nat → Prop
  | construct {s s' : State W} {timestamp : Nat} (asset : Address) (initArgs : List Val)
      (hrun : construct h timestamp asset initArgs s = .ok () s') :
      StrategyStep h strategy may (s, timestamp) (s', timestamp)
  | deposit {s s' : State W} {timestamp timestamp' : Nat} (amount : Int) (vault : Address)
      {r : Int} (hle : timestamp ≤ timestamp')
      (hrun : deposit h timestamp' strategy amount vault s = .ok r s') :
      StrategyStep h strategy may (s, timestamp) (s', timestamp')
  | withdraw {s s' : State W} {timestamp timestamp' : Nat} (amount : Int)
      (vault recipient : Address) {r : Int} (hmay : may vault) (hle : timestamp ≤ timestamp')
      (hrun : withdraw h timestamp' strategy amount vault recipient s = .ok r s') :
      StrategyStep h strategy may (s, timestamp) (s', timestamp')
  | call {s : State W} {t : System W} {timestamp timestamp' : Nat} (call : ControllerCall)
      (hother : call.signatory ≠ some strategy) (hle : timestamp ≤ timestamp')
      (hexec : call.exec h timestamp' s.toSystem = .ok t) :
      StrategyStep h strategy may (s, timestamp) ({ s with toSystem := t }, timestamp')
  | outside {s : State W} {timestamp : Nat} (w : W)
      (hkept : h.TokensKept strategy s.pool.world w) :
      StrategyStep h strategy may (s, timestamp) ({ s with pool.world := w }, timestamp)

abbrev StrategySteps (h : ControllerHost W) (strategy : Address) (may : Address → Prop) :=
  Relation.ReflTransGen (StrategyStep h strategy may)

/-- The vaults' accounts are apart, were opened once, are held by the strategy alone as long as they
exist, and owe nothing. -/
structure State.Isolated (h : ControllerHost W) (strategy : Address) (s : State W) : Prop where
  apart : ∀ {vault other id}, s.vaultAccounts.get? vault = some id →
    s.vaultAccounts.get? other = some id → vault = other
  opened : ∀ {vault id}, s.vaultAccounts.get? vault = some id →
    id ≠ 0 ∧ id < s.nft.nextTokenId
  held : ∀ {vault id}, s.vaultAccounts.get? vault = some id →
    s.nft.tokens.contains id = true → h.nftOwner s.pool.world id = strategy
  free : ∀ {vault id}, s.vaultAccounts.get? vault = some id →
    s.store.getDebtPositions id = .empty
  ungranted : s.toSystem.NoGrants strategy

namespace State.Isolated

variable {vault : Address} {id : Nat} {mine : Prop}

/-- Only the strategy has authority over a vault's account. -/
theorem authorised (hs : s.Isolated h strategy) (hid : s.vaultAccounts.get? vault = some id)
    (hlive : s.nft.tokens.contains id = true) {caller : Address}
    (hauth : s.toSystem.Authorised h id caller) : caller = strategy := by
  rcases hauth with rfl | ⟨-, hgranted⟩
  · exact hs.held hid hlive
  · rw [hs.held hid hlive, hs.ungranted id] at hgranted
    cases hgranted

/-- Mappings may be dropped. -/
theorem dropped (hs : s.Isolated h strategy) (hsys : s'.toSystem = s.toSystem)
    (hmap : ∀ vault id, s'.vaultAccounts.get? vault = some id →
      s.vaultAccounts.get? vault = some id) : s'.Isolated h strategy where
  apart h1 h2 := hs.apart (hmap _ _ h1) (hmap _ _ h2)
  opened h1 := hsys ▸ hs.opened (hmap _ _ h1)
  held h1 := hsys ▸ hs.held (hmap _ _ h1)
  free h1 := hsys ▸ hs.free (hmap _ _ h1)
  ungranted := hsys ▸ hs.ungranted

/-- A vault may be mapped to an account that is nobody's yet. -/
theorem mapped (hs : s.Isolated h strategy) (hsys : s'.toSystem = s.toSystem)
    (hself : s'.vaultAccounts.get? vault = some id)
    (hother : ∀ other ≠ vault, s'.vaultAccounts.get? other = s.vaultAccounts.get? other)
    (hnew : ∀ other, s.vaultAccounts.get? other ≠ some id)
    (hopened : id ≠ 0 ∧ id < s.nft.nextTokenId)
    (hheld : s.nft.tokens.contains id = true → h.nftOwner s.pool.world id = strategy)
    (hfree : s.store.getDebtPositions id = .empty) : s'.Isolated h strategy := by
  have hcase : ∀ {other id'}, s'.vaultAccounts.get? other = some id' →
      other = vault ∧ id' = id ∨ other ≠ vault ∧ s.vaultAccounts.get? other = some id' := by
    intro other id' hget
    by_cases heq : other = vault
    · subst heq
      exact .inl ⟨rfl, Option.some.inj (hget.symm.trans hself)⟩
    · exact .inr ⟨heq, (hother other heq).symm.trans hget⟩
  refine ⟨fun h1 h2 => ?_, fun h1 => ?_, fun h1 hlive => ?_, fun h1 => ?_, hsys ▸ hs.ungranted⟩
  · rcases hcase h1 with ⟨rfl, rfl⟩ | ⟨-, hold1⟩
    · rcases hcase h2 with ⟨rfl, -⟩ | ⟨-, hold2⟩
      · rfl
      · exact absurd hold2 (hnew _)
    · rcases hcase h2 with ⟨-, rfl⟩ | ⟨-, hold2⟩
      · exact absurd hold1 (hnew _)
      · exact hs.apart hold1 hold2
  · rw [hsys]
    rcases hcase h1 with ⟨-, rfl⟩ | ⟨-, hold⟩
    · exact hopened
    · exact hs.opened hold
  · rw [hsys] at hlive ⊢
    rcases hcase h1 with ⟨-, rfl⟩ | ⟨-, hold⟩
    · exact hheld hlive
    · exact hs.held hold hlive
  · rw [hsys]
    rcases hcase h1 with ⟨-, rfl⟩ | ⟨-, hold⟩
    · exact hfree
    · exact hs.free hold

/-- The system may act, where it grants nothing of the strategy's and the accounts stay free of
debt. -/
theorem acted (hs : s.Isolated h strategy) {t : System W}
    (hretains : s.toSystem.Retains h strategy mine t) (hgrants : t.NoGrants strategy)
    (hfree : ∀ {vault id}, s.vaultAccounts.get? vault = some id →
      t.store.getDebtPositions id = .empty) :
    State.Isolated h strategy { s with toSystem := t } where
  apart := hs.apart
  opened hid := ⟨(hs.opened hid).1, (hs.opened hid).2.trans_le hretains.counter⟩
  held {vault id} hid hlive := by
    have hold : s.nft.tokens.contains id = true :=
      (hretains.tokens id hlive).resolve_right fun hnew => by
        have := (hs.opened hid).2
        omega
    exact hretains.owner id hold hlive (hs.held hid hold)
  free := hfree
  ungranted := hgrants

end State.Isolated

section Runs

variable {w : W} {t₀ : Nat} {p p' : State W × Nat} {may : Address → Prop}

/-- The strategy as the controller sees it: a step is a run of the system. -/
theorem StrategyStep.controller (hstep : StrategyStep h strategy may p p') :
    ControllerSteps h (p.1.toSystem, p.2) (p'.1.toSystem, p'.2) := by
  cases hstep with
  | construct asset initArgs hrun =>
    rw [(construct_ok hrun).1]
  | deposit amount vault hle hrun =>
    obtain ⟨cfg, w, received, stored, id, u, -, -, -, -, hsupply, hsys, -⟩ := deposit_ok hrun
    rw [hsys]
    exact .head (.outside w) (.single (.call _ hle (supply_exec hsupply)))
  | withdraw amount vault recipient _ hle hrun =>
    obtain ⟨id, payments, paid, u, -, hwithdraw, hsys, -⟩ := withdraw_ok hrun
    rw [hsys]
    exact .single (.call _ hle (withdraw_exec hwithdraw))
  | call call _ hle hexec => exact .single (.call call hle hexec)
  | outside w _ => exact .single (.outside w)

theorem StrategySteps.controller (hrun : StrategySteps h strategy may p p') :
    ControllerSteps h (p.1.toSystem, p.2) (p'.1.toSystem, p'.2) := by
  induction hrun with
  | refl => exact .refl
  | tail _ hstep ih => exact ih.trans hstep.controller

theorem State.deployed_isolated : (State.deployed w).Isolated h strategy :=
  ⟨nofun, nofun, nofun, nofun, fun _ => rfl⟩

/-- The world outside keeps what the strategy holds. -/
theorem State.Isolated.outside {s : State W} (hs : s.Isolated h strategy)
    (hreach : s.toSystem.Reachable h) {w : W} (hkept : h.TokensKept strategy s.pool.world w) :
    State.Isolated h strategy { s with pool.world := w } := by
  have hretains : s.toSystem.Retains h strategy True { s.toSystem with pool.world := w } :=
    .of_same hreach.wellFormed.fresh rfl hkept
  exact hs.acted hretains hs.ungranted hs.free

/-- The id of an account that a supply opened is nobody's yet. -/
structure Unclaimed (h : ControllerHost W) (strategy : Address) (s : State W) (t : System W)
    (id : Nat) : Prop where
  new : ∀ other, s.vaultAccounts.get? other ≠ some id
  opened : id ≠ 0 ∧ id < t.nft.nextTokenId
  held : t.nft.tokens.contains id = true → h.nftOwner t.pool.world id = strategy
  free : t.store.getDebtPositions id = .empty

/-- **A supply** of the strategy keeps the accounts apart, whether it opens another one or not. -/
theorem supply_isolated (hh : h.Entrusted strategy) {s : State W} {t₁ : Nat}
    (hsteps : ControllerSteps h (.deployed w, t₀) (s.toSystem, t₁)) (hs : s.Isolated h strategy)
    {stored spokeId id : Nat} {payments : List HubPayment} {u : Invocation W}
    (hrun : Governance.whenNotPaused (Positions.processSupply h timestamp strategy stored spokeId
      payments) { toSystem := s.toSystem, cache := {} } = .ok id u) :
    State.Isolated h strategy { s with toSystem := u.toSystem } ∧
      (stored ≠ 0 → id = stored) ∧ (stored = 0 → Unclaimed h strategy s u.toSystem id) := by
  have hwf : s.WellFormed := System.Reachable.wellFormed ⟨w, t₀, t₁, hsteps⟩
  have hcounter : 1 ≤ s.nft.nextTokenId :=
    (hsteps.inBalance (System.deployed_inBalance w)).evolves.counter
  have hacts := ControllerCall.exec_acts (supply_exec hrun)
  have hretains := hacts.retains hh hwf.fresh
  have hfree : s.toSystem.StaysFree u.toSystem :=
    (FreeOnly.reads h timestamp store_reads).bind (fun _ => .bind .lift fun _ =>
      Positions.processSupply_free) |>.ok hrun
  obtain ⟨hid, hlt⟩ := supply_returns hrun
  have hgrants := hacts.noGrants (fun hgrants => by cases hgrants) hs.ungranted
  refine ⟨hs.acted hretains hgrants fun hmap => hfree _ (hs.free hmap),
    fun hne => hid.trans (if_neg hne), fun hzero => ?_⟩
  obtain rfl : id = s.nft.nextTokenId := hid.trans (if_pos hzero)
  refine ⟨fun other hmap => ?_, ⟨by omega, hlt hzero⟩, fun hlive => ?_, hfree _ ?_⟩
  · exact (hs.opened hmap).2.ne rfl
  · rcases hretains.tokens _ hlive with hold | ⟨-, hmine⟩
    · exact absurd (hwf.fresh _ hold) (lt_irrefl _)
    · exact hmine rfl
  · rw [ControllerStore.getDebtPositions, (hwf.orphan _ hwf.next_unbound).2]
    rfl

theorem deposit_isolated (hh : h.Entrusted strategy) {s s' : State W} {t₁ : Nat}
    (hsteps : ControllerSteps h (.deployed w, t₀) (s.toSystem, t₁)) (hs : s.Isolated h strategy)
    {amount r : Int} {vault : Address}
    (hrun : deposit h timestamp strategy amount vault s = .ok r s') : s'.Isolated h strategy := by
  obtain ⟨cfg, w', received, stored, id, u, -, hmove, hstored, -, hsupply, hsys, hself, hother⟩ :=
    deposit_ok hrun
  have hpulled := hs.outside ⟨w, t₀, t₁, hsteps⟩
    (hh.respects.transfer (TokenHost.transferAmountMeasured_moves hmove))
  obtain ⟨hsupplied, hsame, hopened⟩ :=
    supply_isolated hh (hsteps.tail (.outside w')) hpulled hsupply
  by_cases hzero : stored = 0
  · obtain ⟨hnew, hid, hheld, hfree⟩ := hopened hzero
    exact hsupplied.mapped hsys hself hother hnew hid hheld hfree
  · refine hsupplied.dropped hsys fun other id' hget => ?_
    by_cases heq : other = vault
    · subst heq
      obtain rfl := Option.some.inj (hget.symm.trans hself)
      rw [hsame hzero]
      exact hstored hzero
    · exact (hother other heq).symm.trans hget

theorem withdraw_isolated (hh : h.Entrusted strategy) {s s' : State W} {t₁ : Nat}
    (hsteps : ControllerSteps h (.deployed w, t₀) (s.toSystem, t₁)) (hs : s.Isolated h strategy)
    {amount r : Int} {vault recipient : Address}
    (hrun : withdraw h timestamp strategy amount vault recipient s = .ok r s') :
    s'.Isolated h strategy := by
  obtain ⟨id, payments, paid, u, -, hwithdraw, hsys, hmap⟩ := withdraw_ok hrun
  have hwf : s.WellFormed := System.Reachable.wellFormed ⟨w, t₀, t₁, hsteps⟩
  have hacts := ControllerCall.exec_acts (withdraw_exec hwithdraw)
  have hfree : s.toSystem.StaysFree u.toSystem := Positions.processWithdraw_free.ok hwithdraw
  have hgrants := hacts.noGrants (fun hgrants => by cases hgrants) hs.ungranted
  have hacted := hs.acted (hacts.retains hh hwf.fresh) hgrants fun hget =>
    hfree _ (hs.free hget)
  refine hacted.dropped hsys fun other id' hget => ?_
  rcases hmap with hmap | hmap
  · rwa [hmap] at hget
  · rw [hmap, SortedMap.get?_erase] at hget
    split at hget
    · cases hget
    · exact hget

/-- Somebody else's call leaves the vaults' accounts alone. -/
theorem call_spares (hh : h.Entrusted strategy) {s : State W} {t : System W} {t₁ : Nat}
    (hsteps : ControllerSteps h (.deployed w, t₀) (s.toSystem, t₁)) (hs : s.Isolated h strategy)
    {call : ControllerCall} (hother : call.signatory ≠ some strategy) (hle : t₁ ≤ timestamp)
    (hexec : call.exec h timestamp s.toSystem = .ok t) {vault : Address} {id : Nat}
    (hid : s.vaultAccounts.get? vault = some id) : s.toSystem.Spares id t := by
  refine ControllerCall.exec_spares hh hsteps hle hexec (hs.opened hid).2 (hs.free hid)
    fun hlive caller hacts hauth => hother ?_
  rw [ControllerCall.signatory_of_acts hacts, hs.authorised hid hlive hauth]

theorem call_isolated (hh : h.Entrusted strategy) {s : State W} {t : System W} {t₁ : Nat}
    (hsteps : ControllerSteps h (.deployed w, t₀) (s.toSystem, t₁)) (hs : s.Isolated h strategy)
    {call : ControllerCall} (hother : call.signatory ≠ some strategy) (hle : t₁ ≤ timestamp)
    (hexec : call.exec h timestamp s.toSystem = .ok t) :
    State.Isolated h strategy { s with toSystem := t } := by
  have hwf : s.WellFormed := System.Reachable.wellFormed ⟨w, t₀, t₁, hsteps⟩
  have ht : t.WellFormed :=
    System.Reachable.wellFormed ⟨w, t₀, timestamp, hsteps.tail (.call call hle hexec)⟩
  have hacts := ControllerCall.exec_acts hexec
  refine hs.acted (hacts.retains hh hwf.fresh) (hacts.noGrants ?_ hs.ungranted) fun hid =>
    (call_spares hh hsteps hs hother hle hexec hid).debtFree ht (hs.free hid)
  exact fun hgrants => hother (ControllerCall.signatory_of_granting hgrants)

/-- **One step** keeps the vaults apart. -/
theorem StrategyStep.isolated (hh : h.Entrusted strategy)
    (hsteps : ControllerSteps h (.deployed w, t₀) (p.1.toSystem, p.2))
    (hs : p.1.Isolated h strategy) (hstep : StrategyStep h strategy may p p') :
    p'.1.Isolated h strategy := by
  cases hstep with
  | construct asset initArgs hrun =>
    obtain ⟨hsys, hmap⟩ := construct_ok hrun
    exact hs.dropped hsys fun _ _ hget => hmap ▸ hget
  | deposit amount vault _ hrun => exact deposit_isolated hh hsteps hs hrun
  | withdraw amount vault recipient _ _ hrun => exact withdraw_isolated hh hsteps hs hrun
  | call call hother hle hexec => exact call_isolated hh hsteps hs hother hle hexec
  | outside w hkept => exact hs.outside ⟨_, t₀, _, hsteps⟩ hkept

theorem StrategySteps.isolated (hh : h.Entrusted strategy)
    (hsteps : ControllerSteps h (.deployed w, t₀) (p.1.toSystem, p.2))
    (hs : p.1.Isolated h strategy) (hrun : StrategySteps h strategy may p p') :
    p'.1.Isolated h strategy := by
  induction hrun with
  | refl => exact hs
  | tail hrun hstep ih =>
    exact hstep.isolated hh (hsteps.trans (StrategySteps.controller hrun)) ih

/-- **One step** in which a vault does not withdraw spares its account, and leaves it mapped as long
as there is something in it. -/
theorem StrategyStep.spares (hh : h.Entrusted strategy)
    (hsteps : ControllerSteps h (.deployed w, t₀) (p.1.toSystem, p.2))
    (hs : p.1.Isolated h strategy) {vault : Address} {id : Nat}
    (hid : p.1.vaultAccounts.get? vault = some id) {market : HubAssetKey}
    (hpos : 0 < p.1.store.sharesOf id .supply market)
    (hstep : StrategyStep h strategy (· ≠ vault) p p') :
    p.1.toSystem.Spares id p'.1.toSystem ∧ p'.1.vaultAccounts.get? vault = some id := by
  cases hstep with
  | construct asset initArgs hrun =>
    obtain ⟨hsys, hmap⟩ := construct_ok hrun
    exact ⟨hsys ▸ .refl, hmap ▸ hid⟩
  | @deposit s s' timestamp timestamp' amount depositor r hle hrun =>
    obtain ⟨cfg, w', received, stored, id', u, -, -, hstored, hgone, hsupply, hsys, hself,
      hother⟩ := deposit_ok hrun
    refine ⟨hsys ▸ ?_, ?_⟩
    · have hmoved : s.toSystem.Spares id { s.toSystem with pool.world := w' } := .of_same rfl rfl
      exact hmoved.trans (ControllerCall.exec_spares hh (hsteps.tail (.outside w')) hle
        (supply_exec hsupply) (hs.opened hid).2 (hs.free hid) fun _ _ hacts => nomatch hacts)
    · by_cases heq : vault = depositor
      · subst heq
        have hne : stored ≠ 0 := by
          intro hzero
          rcases hgone hzero id hid with hnil | hgone
          · exact (hs.opened hid).1 hnil
          · have hwf : s.WellFormed := System.Reachable.wellFormed ⟨w, t₀, _, hsteps⟩
            obtain ⟨m, hmeta⟩ := SortedMap.contains_iff.mp
              ((hwf.live id).trans (hwf.token_of_shares hpos))
            cases hgone.symm.trans hmeta
        have hsame : id' = stored := (supply_returns hsupply).1.trans (if_neg hne)
        rw [hself, hsame, ← hstored hne, hid]
      · exact (hother vault heq).trans hid
  | withdraw amount withdrawer recipient hne hle hrun =>
    obtain ⟨id', payments, paid, u, hid', hwithdraw, hsys, hmap⟩ := withdraw_ok hrun
    refine ⟨hsys ▸ ControllerCall.exec_spares hh hsteps hle (withdraw_exec hwithdraw)
      (hs.opened hid).2 (hs.free hid) fun _ caller hacts _ => ?_, ?_⟩
    · obtain ⟨-, rfl⟩ := Prod.mk.inj (Option.some.inj hacts)
      exact hne (hs.apart hid' hid)
    · rcases hmap with hmap | hmap
      · rw [hmap]
        exact hid
      · rw [hmap, SortedMap.get?_erase_ne _ (Ne.symm hne)]
        exact hid
  | call call hother hle hexec =>
    exact ⟨call_spares hh hsteps hs hother hle hexec hid, hid⟩
  | outside w _ => exact ⟨.of_same rfl rfl, hid⟩

theorem StrategySteps.spares (hh : h.Entrusted strategy)
    (hsteps : ControllerSteps h (.deployed w, t₀) (p.1.toSystem, p.2))
    (hs : p.1.Isolated h strategy) {vault : Address} {id : Nat}
    (hid : p.1.vaultAccounts.get? vault = some id) {market : HubAssetKey}
    (hpos : 0 < p.1.store.sharesOf id .supply market)
    (hrun : StrategySteps h strategy (· ≠ vault) p p') :
    p.1.toSystem.Spares id p'.1.toSystem ∧ p'.1.vaultAccounts.get? vault = some id := by
  induction hrun with
  | refl => exact ⟨.refl, hid⟩
  | tail hrun hstep ih =>
    have hq := hsteps.trans (StrategySteps.controller hrun)
    obtain ⟨hspares, hid'⟩ := hstep.spares hh hq (StrategySteps.isolated hh hsteps hs hrun) ih.2
      (hpos.trans_le (ih.1.supply market))
    exact ⟨ih.1.trans hspares, hid'⟩

/-- **Vaults do not touch each other.** Whatever happened before, a vault with something in its
account keeps all of it through any run in which it does not withdraw itself, whatever other vaults
deposit and withdraw, and whatever everybody else calls on the controller, seizures and the
governance included. The account stays its own, alive and free of debt, and nobody but the strategy
may act for it. -/
theorem vaults_isolated (hh : h.Entrusted strategy) {before : Address → Prop}
    (hsteps : StrategySteps h strategy before (.deployed w, t₀) p) {vault : Address} {id : Nat}
    (hid : p.1.vaultAccounts.get? vault = some id) {market : HubAssetKey}
    (hpos : 0 < p.1.store.sharesOf id .supply market)
    (hrun : StrategySteps h strategy (· ≠ vault) p p') :
    p'.1.vaultAccounts.get? vault = some id ∧
      (∀ other, p'.1.vaultAccounts.get? other = some id → other = vault) ∧
      (∀ m, p.1.store.sharesOf id .supply m ≤ p'.1.store.sharesOf id .supply m) ∧
      p'.1.store.getDebtPositions id = .empty ∧ p'.1.nft.tokens.contains id = true ∧
      ∀ caller, p'.1.toSystem.Authorised h id caller → caller = strategy := by
  have hbefore := hsteps.controller
  have hs : p.1.Isolated h strategy :=
    StrategySteps.isolated hh .refl State.deployed_isolated hsteps
  have hs' : p'.1.Isolated h strategy := StrategySteps.isolated hh hbefore hs hrun
  obtain ⟨hspares, hid'⟩ := StrategySteps.spares hh hbefore hs hid hpos hrun
  have hwf : p'.1.WellFormed :=
    System.Reachable.wellFormed ⟨w, t₀, p'.2, hbefore.trans hrun.controller⟩
  have hlive := hwf.token_of_shares (hpos.trans_le (hspares.supply market))
  exact ⟨hid', fun other hother => hs'.apart hother hid', hspares.supply, hs'.free hid', hlive,
    fun caller hauth => hs'.authorised hid' hlive hauth⟩

end Runs

/-! ## A sample run -/

/-- The call returns, and what it leaves passes the test. -/
def returnsWith {α : Type} (x : Strat W α) (s : State W) (test : State W → Bool) : Bool :=
  match x s with
  | .ok _ t => test t
  | .error _ _ => false

theorem returnsWith_ok {α : Type} {x : Strat W α} {s : State W} {test : State W → Bool}
    (hrun : returnsWith x s test = true) : ∃ a t, x s = .ok a t ∧ test t = true := by
  unfold returnsWith at hrun
  split at hrun
  · rename_i a t hx
    exact ⟨a, t, hx, hrun⟩
  · cases hrun

theorem runCalls_strategySteps {s : State W} {t : System W} {may : Address → Prop}
    {calls : List ControllerCall} (hothers : ∀ call ∈ calls, call.signatory ≠ some strategy)
    (hrun : runCalls h timestamp s.toSystem calls = .ok t) :
    StrategySteps h strategy may (s, timestamp) ({ s with toSystem := t }, timestamp) := by
  induction calls generalizing s with
  | nil =>
    obtain rfl := Except.ok.inj hrun
    exact .refl
  | cons call calls ih =>
    obtain ⟨u, hexec, hrest⟩ := Fallible.bind_ok hrun
    exact .head (.call call (hothers call List.mem_cons_self) le_rfl hexec)
      (ih (s := { s with toSystem := u }) (fun c hc => hothers c (List.mem_cons_of_mem _ hc)) hrest)

end Lending.DefindexStrategy

namespace Lending.Sample

/-- The sample tokens, and who holds which account. -/
structure Ledger where
  tokens : Balances
  owners : Nat → Address

/-- The sample host with the accounts held by those they were minted to. -/
def ledgerHost : ControllerHost Ledger where
  balance w := controllerHost.balance w.tokens
  allowance w := controllerHost.allowance w.tokens
  transfer w asset sender recipient amount := do
    return { w with tokens := ← controllerHost.transfer w.tokens asset sender recipient amount }
  transferFrom w asset spender sender recipient amount := do
    return { w with
      tokens := ← controllerHost.transferFrom w.tokens asset spender sender recipient amount }
  pool := controllerHost.pool
  owner := controllerHost.owner
  isWasmContract w := controllerHost.isWasmContract w.tokens
  executeFlashLoan w _ _ _ _ _ _ _ := .ok w
  controller := controllerHost.controller
  price w := controllerHost.price w.tokens
  nftOwner w id := w.owners id
  nftAssign w id owner := { w with owners := fun i => if i = id then owner else w.owners i }
  nftRelease w _ := w
  executeStrategy w _ _ _ _ := .ok w
  executeFlashPosition w _ _ _ _ _ _ _ _ _ := .ok w
  blendSubmit w _ _ _ _ _ := .ok w

theorem ledgerHost_entrusted (holder : Address) : ledgerHost.Entrusted holder where
  respects :=
    { transfer := fun hmove id howner => by
        obtain ⟨tokens, -, heq⟩ := Fallible.bind_ok hmove
        cases heq
        exact howner
      transferFrom := fun hmove id howner => by
        obtain ⟨tokens, -, heq⟩ := Fallible.bind_ok hmove
        cases heq
        exact howner
      callback := fun hcall id howner => by
        cases hcall
        exact howner
      router := fun hcall id howner => by
        cases hcall
        exact howner
      receiver := fun hcall id howner => by
        cases hcall
        exact howner
      blend := fun hcall id howner => by
        cases hcall
        exact howner }
  assign _ _ _ := if_pos rfl
  assign_ne _ _ _ _ hne := if_neg hne
  release_ne _ _ _ _ := rfl

end Lending.Sample

namespace Lending.DefindexStrategy

open Sample

/-- The strategy before it is constructed. -/
def unconstructed : State Ledger := .deployed ⟨opening, fun _ => 0⟩

/-- Vaults 5 and 6 deposit five tokens and three. While the second deposits more, takes everything
out and starts anew, and a stranger adds to the account of the first, that stays where it was. -/
theorem vaults_isolated_sample :
    ∃ p p' : State Ledger × Nat, StrategySteps ledgerHost 10 (· ≠ 5) p p' ∧
      p.1.vaultAccounts.get? 5 = some 3 ∧ p.1.store.sharesOf 3 .supply key = 5 * ray ∧
      p'.1.vaultAccounts.get? 5 = some 3 ∧ 5 * ray ≤ p'.1.store.sharesOf 3 .supply key ∧
      p'.1.store.getDebtPositions 3 = .empty := by
  obtain ⟨t, hsetup, hany⟩ : ∃ t : System Ledger,
      runCalls ledgerHost 1_000 unconstructed.toSystem Sample.calls = .ok t ∧
      returnsWith (construct ledgerHost 1_000 7 [.address 2, .u32 1, .u32 1])
        { unconstructed with toSystem := t } (fun s =>
      returnsWith (deposit ledgerHost 1_000 10 50_000_000 5) s fun s =>
      returnsWith (deposit ledgerHost 1_000 10 30_000_000 6) s fun s =>
      s.vaultAccounts.get? 5 = some 3 ∧ s.store.sharesOf 3 .supply key = 5 * ray ∧
      returnsWith (deposit ledgerHost 1_000 10 20_000_000 6) s (fun s =>
      returnsWith (withdraw ledgerHost 1_000 10 50_000_000 6 6) s fun s =>
      returnsWith (deposit ledgerHost 1_000 10 20_000_000 6) s fun s =>
      (runCalls ledgerHost 1_000 s.toSystem [.supply 8 3 1 [(key, 10_000)]]).toOption.any
        fun _ => True)) = true :=
    runCalls_ok (by decide +kernel)
  obtain ⟨_, s0, hconstruct, hany⟩ := returnsWith_ok hany
  obtain ⟨_, s1, hdeposit1, hany⟩ := returnsWith_ok hany
  obtain ⟨_, s2, hdeposit2, hany⟩ := returnsWith_ok hany
  obtain ⟨hid, hshares, hany⟩ := of_decide_eq_true hany
  obtain ⟨_, s3, hdeposit3, hany⟩ := returnsWith_ok hany
  obtain ⟨_, s4, hwithdraw, hany⟩ := returnsWith_ok hany
  obtain ⟨_, s5, hdeposit4, hany⟩ := returnsWith_ok hany
  obtain ⟨u, hstranger, -⟩ := runCalls_ok hany
  have hsteps : StrategySteps ledgerHost 10 (fun _ => True)
      (unconstructed, 1_000) (s2, 1_000) :=
    (runCalls_strategySteps (by decide) hsetup).trans <|
    .head (.construct _ _ hconstruct) <| .head (.deposit _ _ le_rfl hdeposit1) <|
    .single (.deposit _ _ le_rfl hdeposit2)
  have hrun : StrategySteps ledgerHost 10 (· ≠ 5) (s2, 1_000)
      ({ s5 with toSystem := u }, 1_000) :=
    .head (.deposit _ _ le_rfl hdeposit3) <|
    .head (.withdraw _ _ _ (by decide) le_rfl hwithdraw) <|
    .head (.deposit _ _ le_rfl hdeposit4) <|
    runCalls_strategySteps (by decide) hstranger
  have hpos : 0 < s2.store.sharesOf 3 .supply key := hshares ▸ by decide
  obtain ⟨hid', -, hkept, hfree, -⟩ :=
    vaults_isolated (ledgerHost_entrusted 10) hsteps hid hpos hrun
  exact ⟨_, _, hrun, hid, hshares, hid', hshares ▸ hkept key, hfree⟩

end Lending.DefindexStrategy
