import LendingXlm.Controller.Legs

/-!
# Opening and closing an account

A flow takes an account out of storage (`getAccount`, `createAccountWith`), works on it, and writes
it back (`finalizePositionFlow`), or removes it. Taking it in hand moves its shares out of the
total over stored accounts; writing it back moves them in again.
-/

namespace Lending

open Transaction Ctrl Invocation Books

variable {W : Type} {h : ControllerHost W} {timestamp : Nat}

/-! ## Usage rows of the store -/

namespace ControllerStore

/-- What a stored row says about one side; nothing when it is absent. -/
def usageOf (s : ControllerStore) (spokeId : Nat) (market : HubAssetKey) (side : UsageSide) : Int :=
  (s.getSpokeUsage spokeId market).elim 0 side.scaled

theorem usageOf_setSpokeUsage {s : ControllerStore} {spokeId spokeId' : Nat}
    {market market' : HubAssetKey} {usage : SpokeUsage} {side : UsageSide} :
    (s.setSpokeUsage spokeId market usage).usageOf spokeId' market' side =
      if spokeId' = spokeId ∧ market' = market then side.scaled usage
      else s.usageOf spokeId' market' side := by
  have hkey : (⟨spokeId', market'⟩ : SpokeAssetKey) = ⟨spokeId, market⟩ ↔
      spokeId' = spokeId ∧ market' = market := by simp
  unfold setSpokeUsage usageOf getSpokeUsage
  split
  · rename_i hzero
    rw [SortedMap.get?_erase]
    simp only [hkey]
    split
    · cases side with
      | supply => exact hzero.1.symm
      | borrow => exact hzero.2.symm
    · rfl
  · rw [SortedMap.get?_set]
    simp only [hkey]
    split <;> rfl

/-- Writing rows touches nothing else. -/
theorem setSpokeUsage_eq (s : ControllerStore) (spokeId : Nat) (market : HubAssetKey)
    (usage : SpokeUsage) :
    ∃ rows, s.setSpokeUsage spokeId market usage = { s with spokeUsage := rows } := by
  unfold setSpokeUsage
  split
  · exact ⟨_, rfl⟩
  · exact ⟨_, rfl⟩

end ControllerStore

namespace SpokeUsageContext

theorem persist_eq (ctx : SpokeUsageContext) (s : ControllerStore) :
    ∃ rows, ctx.persist s = { s with spokeUsage := rows } := by
  unfold persist
  induction ctx.usage.entries generalizing s with
  | nil => exact ⟨s.spokeUsage, rfl⟩
  | cons e l ih =>
    obtain ⟨rows, hrows⟩ := s.setSpokeUsage_eq ctx.spokeId e.1 e.2
    rw [List.foldl_cons, hrows]
    exact ih _

/-- The rows of a list of entries with different markets, over those of the store. -/
theorem usageOf_foldl {spokeId : Nat} {l : List (HubAssetKey × SpokeUsage)}
    (hl : l.Pairwise fun a b => a.1 < b.1) {s : ControllerStore} {id : Nat} {market : HubAssetKey}
    {side : UsageSide} :
    (l.foldl (fun s e => s.setSpokeUsage spokeId e.1 e.2) s).usageOf id market side =
      if id = spokeId then
        (SortedMap.get? ⟨l, hl⟩ market).elim (s.usageOf id market side) side.scaled
      else s.usageOf id market side := by
  induction l generalizing s with
  | nil =>
    have hnil : SortedMap.get? ⟨[], hl⟩ market = none := rfl
    rw [hnil, Option.elim_none, ite_self, List.foldl_nil]
  | cons e l ih =>
    obtain ⟨hhead, htail⟩ := List.pairwise_cons.mp hl
    rw [List.foldl_cons, ih htail, ControllerStore.usageOf_setSpokeUsage, SortedMap.get?_cons]
    by_cases hid : id = spokeId
    · simp only [hid, if_true, true_and]
      by_cases hm : market = e.1
      · have hnone : SortedMap.get? ⟨l, htail⟩ market = none :=
          SortedMap.get?_eq_none_of_lt (hm ▸ hhead)
        rw [hnone, if_pos hm, if_pos hm, Option.elim_none, Option.elim_some]
      · rw [if_neg hm, if_neg hm]
    · simp only [hid, if_false, false_and]

theorem usageOf_persist {ctx : SpokeUsageContext} {s : ControllerStore} {id : Nat}
    {market : HubAssetKey} {side : UsageSide} :
    (ctx.persist s).usageOf id market side =
      if id = ctx.spokeId then (ctx.row s market).elim 0 side.scaled
      else s.usageOf id market side := by
  unfold persist
  rw [usageOf_foldl ctx.usage.sorted]
  split
  · rename_i hid
    rw [hid, row]
    cases ctx.usage.get? market <;> rfl
  · rfl

end SpokeUsageContext

theorem Invocation.usageRow_value {s : Invocation W} {id : Nat} {market : HubAssetKey}
    {side : UsageSide} :
    (s.usageRow id market).elim 0 side.scaled =
      match s.cache.spokeUsage with
      | some ctx => (ctx.persist s.store).usageOf id market side
      | none => s.store.usageOf id market side := by
  unfold usageRow
  cases s.cache.spokeUsage with
  | none => rfl
  | some ctx =>
    simp only [SpokeUsageContext.usageOf_persist]
    by_cases hid : ctx.spokeId = id
    · rw [if_pos hid, if_pos hid.symm]
    · rw [if_neg hid, if_neg (Ne.symm hid), ControllerStore.usageOf]

/-- The rows a store holds are what the books say of the store. -/
theorem rowBooks_congr {rows rows' : Nat → HubAssetKey → Option SpokeUsage}
    (hrows : ∀ id market side, (rows id market).elim 0 (UsageSide.scaled side) =
      (rows' id market).elim 0 side.scaled) : rowBooks rows = rowBooks rows' := by
  funext ⟨scope, side, market⟩
  cases scope with
  | none => rfl
  | some id => exact hrows id market side

/-! ## Writing an account -/

/-- `st'` is `st` with the positions of account `id` written. -/
structure ControllerStore.Writes (st : ControllerStore) (id : Nat) (a : Account)
    (st' : ControllerStore) : Prop where
  metas : st'.metas = st.metas
  usage : st'.spokeUsage = st.spokeUsage
  limits : st'.positionLimits = st.positionLimits
  supply : st'.getSupplyPositions id = a.supplyPositions
  debt : st'.getDebtPositions id = a.borrowPositions
  supply_ne : ∀ id' ≠ id, st'.supplyPositions.get? id' = st.supplyPositions.get? id'
  debt_ne : ∀ id' ≠ id, st'.borrowPositions.get? id' = st.borrowPositions.get? id'

namespace ControllerStore

variable {st st' : ControllerStore} {id : Nat} {a : Account}

theorem getSupplyPositions_set {map : SortedMap HubAssetKey AccountPosition} :
    (st.setSupplyPositions id map).getSupplyPositions id = map := by
  unfold setSupplyPositions getSupplyPositions
  split
  · rename_i hempty
    rw [SortedMap.get?_erase_self, Option.getD_none]
    exact (SortedMap.isEmpty_iff.mp hempty).symm
  · rw [SortedMap.get?_set_self, Option.getD_some]

theorem getDebtPositions_set {map : SortedMap HubAssetKey DebtPosition} :
    (st.setDebtPositions id map).getDebtPositions id = map := by
  unfold setDebtPositions getDebtPositions
  split
  · rename_i hempty
    rw [SortedMap.get?_erase_self, Option.getD_none]
    exact (SortedMap.isEmpty_iff.mp hempty).symm
  · rw [SortedMap.get?_set_self, Option.getD_some]

/-- Writing the supply side alone, when the debt is the stored one. -/
theorem writes_supply (hdebt : st.getDebtPositions id = a.borrowPositions) :
    st.Writes id a (st.setSupplyPositions id a.supplyPositions) := by
  have hget : (st.setSupplyPositions id a.supplyPositions).getSupplyPositions id =
      a.supplyPositions := getSupplyPositions_set
  unfold setSupplyPositions at hget ⊢
  split at hget
  · rename_i hempty
    rw [if_pos hempty]
    exact ⟨rfl, rfl, rfl, hget, hdebt, fun id' hne => SortedMap.get?_erase_ne _ hne, fun _ _ => rfl⟩
  · rename_i hempty
    rw [if_neg hempty]
    exact ⟨rfl, rfl, rfl, hget, hdebt, fun id' hne => SortedMap.get?_set_ne _ _ hne, fun _ _ => rfl⟩

/-- Writing the debt side, when the supply is already there. -/
theorem Writes.setDebt {b : Account} (hw : st.Writes id b st')
    (hsupply : b.supplyPositions = a.supplyPositions) :
    st.Writes id a (st'.setDebtPositions id a.borrowPositions) := by
  have hget : (st'.setDebtPositions id a.borrowPositions).getDebtPositions id =
      a.borrowPositions := getDebtPositions_set
  have hs := hw.supply.trans hsupply
  unfold setDebtPositions at hget ⊢
  split at hget
  · rename_i hempty
    rw [if_pos hempty]
    exact ⟨hw.metas, hw.usage, hw.limits, hs, hget, hw.supply_ne, fun id' hne =>
      (SortedMap.get?_erase_ne _ hne).trans (hw.debt_ne id' hne)⟩
  · rename_i hempty
    rw [if_neg hempty]
    exact ⟨hw.metas, hw.usage, hw.limits, hs, hget, hw.supply_ne, fun id' hne =>
      (SortedMap.get?_set_ne _ _ hne).trans (hw.debt_ne id' hne)⟩

/-- Nothing is written when both sides are the stored ones. -/
theorem writes_self (hsupply : st.getSupplyPositions id = a.supplyPositions)
    (hdebt : st.getDebtPositions id = a.borrowPositions) : st.Writes id a st :=
  ⟨rfl, rfl, rfl, hsupply, hdebt, fun _ _ => rfl, fun _ _ => rfl⟩

theorem Writes.getSupply_ne (hw : st.Writes id a st') {id' : Nat} (hne : id' ≠ id) :
    st'.getSupplyPositions id' = st.getSupplyPositions id' := by
  rw [getSupplyPositions, hw.supply_ne id' hne, ← getSupplyPositions]

theorem Writes.getDebt_ne (hw : st.Writes id a st') {id' : Nat} (hne : id' ≠ id) :
    st'.getDebtPositions id' = st.getDebtPositions id' := by
  rw [getDebtPositions, hw.debt_ne id' hne, ← getDebtPositions]

/-- Accounts in hand do not count, whatever is written to them. -/
theorem Writes.booksBesides (hw : st.Writes id a st') {ids : List Nat} (hid : id ∈ ids) :
    st'.booksBesides ids = st.booksBesides ids := by
  unfold ControllerStore.booksBesides
  rw [hw.metas]
  refine SortedMap.sumBy_congr fun id' m hm => ?_
  by_cases hmem : id' ∈ ids
  · rw [if_pos hmem, if_pos hmem]
  · have hne : id' ≠ id := fun heq => hmem (heq ▸ hid)
    rw [if_neg hmem, if_neg hmem, hw.getSupply_ne hne, hw.getDebt_ne hne]

end ControllerStore

/-! ## Sound accounts -/

/-- Soundness looks at the positions only. -/
theorem Account.Sound.congr {decimals : HubAssetKey → Option Nat} {a b : Account}
    (ha : a.Sound decimals) (hs : b.supplyPositions = a.supplyPositions)
    (hd : b.borrowPositions = a.borrowPositions) : b.Sound decimals := by
  obtain ⟨o, sp, mode, s, d⟩ := a
  obtain ⟨o', sp', mode', s', d'⟩ := b
  cases hs
  cases hd
  exact ⟨⟨ha.positive.supply, ha.positive.debt⟩, fun side => by cases side <;> exact ha.fits _⟩

theorem Account.sound_empty {decimals : HubAssetKey → Option Nat} {a : Account}
    (hs : a.supplyPositions = .empty) (hd : a.borrowPositions = .empty) : a.Sound decimals := by
  refine ⟨⟨?_, ?_⟩, fun side => ⟨?_, ?_⟩⟩
  · intro k p hget
    rw [hs] at hget
    cases hget
  · intro k p hget
    rw [hd] at hget
    cases hget
  · cases side with
    | supply =>
      rw [keysOf, hs]
      exact Nat.zero_le _
    | borrow =>
      rw [keysOf, hd]
      exact Nat.zero_le _
  · rintro rfl k hk
    rw [keysOf, hs] at hk
    cases hk

/-- A well-formed system stays so when a sound account is written. -/
theorem System.WellFormed.writes {s s' : System W} (hs : s.WellFormed) {id : Nat} {a : Account}
    {m : AccountMeta} (hw : s.store.Writes id a s'.store) (hm : s.store.metas.get? id = some m)
    (ha : a.Sound s.pool.decimals) (hnft : s'.nft = s.nft)
    (hdec : s'.pool.decimals = s.pool.decimals) : s'.WellFormed := by
  constructor
  · intro id' owner m'
    rw [hdec]
    by_cases hid : id' = id
    · subst hid
      exact ha.congr hw.supply hw.debt
    · exact (hs.sound id' owner m').congr (hw.getSupply_ne hid) (hw.getDebt_ne hid)
  · intro id' hnone
    rw [hw.metas] at hnone
    have hid : id' ≠ id := by
      rintro rfl
      rw [hm] at hnone
      cases hnone
    rw [hw.supply_ne id' hid, hw.debt_ne id' hid]
    exact hs.orphan id' hnone
  · intro id'
    rw [hw.metas, hnft]
    exact hs.live id'
  · rw [hnft]
    exact hs.fresh
  · rw [hw.limits]
    exact hs.limits

theorem System.WellFormed.booksBesides_nonneg {s : System W} (hs : s.WellFormed)
    (ids : List Nat) : 0 ≤ s.store.booksBesides ids := by
  refine SortedMap.sumBy_nonneg fun id m _ => ?_
  split
  · exact le_rfl
  · exact (hs.sound id 0 m).positive.books_nonneg

/-! ## Opening -/

namespace Storage

theorem getAccount_keeps {P : Invocation W → Prop} (hP : Stable P) {id : Nat} :
    Keeps P (getAccount h id) fun a s => P s ∧ Loaded id a s := by
  refine .store fun st => .unwrap fun m hm => ?_
  have hstable : Stable fun s : Invocation W => P s ∧ s.store = st :=
    fun s s' hq hs => ⟨hP s s' hq hs.1, hq.store.trans hs.2⟩
  refine .read h 0 hstable accountOwner_reads fun owner => .pure ?_
  rintro s ⟨hs, rfl⟩
  exact ⟨hs, ⟨m, hm, rfl⟩, rfl, rfl⟩

end Storage

/-- **Opening.** The account's shares leave the total over stored accounts. -/
theorem Balanced.open {start : System W} {ids : List Nat} {rest : Books} {s : Invocation W}
    (hs : Balanced start ids rest s) {id : Nat} {a : Account} (ha : Loaded id a s)
    (hid : id ∉ ids) (hrest : ∀ spokeId side market, 0 ≤ rest ⟨some spokeId, side, market⟩) :
    Holding s.toSystem a.spokeId (s.store.booksBesides (id :: ids) + rest) a s := by
  obtain ⟨m, hm, hspoke⟩ := ha.bound
  have hsound : a.Sound s.pool.decimals :=
    (hs.wellFormed.sound id 0 m).congr ha.supply.symm ha.debt.symm
  refine ⟨rfl, rfl, rfl, rfl, hsound.positive, fun spokeId side market => ?_, ?_⟩
  · have hnn : 0 ≤ s.store.booksBesides (id :: ids) ⟨some spokeId, side, market⟩ :=
      hs.wellFormed.booksBesides_nonneg (id :: ids) _
    have hr := hrest spokeId side market
    rw [Pi.add_apply]
    omega
  · rw [hs.books, ControllerStore.booksBesides_take hm hid, ha.supply, ha.debt, hspoke,
      ← Account.books]
    abel

theorem Balanced.sound {start : System W} {ids : List Nat} {rest : Books} {s : Invocation W}
    (hs : Balanced start ids rest s) {id : Nat} {a : Account} (ha : Loaded id a s) :
    a.Sound s.pool.decimals := by
  obtain ⟨m, -, -⟩ := ha.bound
  exact (hs.wellFormed.sound id 0 m).congr ha.supply.symm ha.debt.symm

/-- Accounts that were loaded are still the stored ones. -/
def Knows (known : List (Nat × Account)) (s : Invocation W) : Prop :=
  ∀ e ∈ known, Loaded e.1 e.2 s

theorem knows_stable {known : List (Nat × Account)} : Stable (Knows (W := W) known) :=
  fun s s' hq hs e he => loaded_stable s s' hq (hs e he)

theorem Stable.and {P Q : Invocation W → Prop} (hP : Stable P) (hQ : Stable Q) :
    Stable fun s => P s ∧ Q s :=
  fun s s' hq hs => ⟨hP s s' hq hs.1, hQ s s' hq hs.2⟩

/-- The state after the next NFT was minted. -/
def Invocation.minted (h : ControllerHost W) (owner : Address) (s : Invocation W) : Invocation W :=
  { s with
    nft := { nextTokenId := s.nft.nextTokenId + 1,
             tokens := s.nft.tokens.set s.nft.nextTokenId () }
    pool.world := h.nftAssign s.pool.world s.nft.nextTokenId owner }

theorem nftMintCall_keeps {P : Invocation W → Prop} {owner : Address} :
    Keeps P (nftMintCall h owner) fun id s =>
      ∃ t, P t ∧ id = t.nft.nextTokenId ∧ s = t.minted h owner := by
  refine Triple.bind Triple.get fun t => Keeps.assert fun _ => ?_
  refine Triple.bind (Q := fun _ s => P t ∧ s = t.minted h owner) (Triple.modify ?_) fun _ =>
    Keeps.pure fun s hs => ⟨t, hs.1, rfl, hs.2⟩
  rintro s hI ⟨hs, rfl⟩
  exact ⟨hI, hs, rfl⟩

/-- The next id has no account. -/
theorem System.WellFormed.next_unbound {s : System W} (hs : s.WellFormed) :
    s.store.metas.get? s.nft.nextTokenId = none := by
  cases hget : s.store.metas.get? s.nft.nextTokenId with
  | none => rfl
  | some m =>
    have hlive := hs.live s.nft.nextTokenId
    rw [SortedMap.contains_iff.mpr ⟨m, hget⟩] at hlive
    exact absurd (hs.fresh _ hlive.symm) (lt_irrefl _)

theorem Loaded.ne_next {s : Invocation W} (hs : s.toSystem.WellFormed) {id : Nat} {a : Account}
    (ha : Loaded id a s) : id ≠ s.nft.nextTokenId := by
  rintro rfl
  obtain ⟨m, hm, -⟩ := ha.bound
  rw [hs.next_unbound] at hm
  cases hm

/-- The state after an account was bound to the freshly minted id. -/
def Invocation.created (h : ControllerHost W) (owner : Address) (m : AccountMeta)
    (s : Invocation W) : Invocation W :=
  { s.minted h owner with
    store := { s.store with metas := s.store.metas.set s.nft.nextTokenId m } }

section Created

variable {start : System W} {owner : Address} {m : AccountMeta} {s : Invocation W}

theorem Loaded.created {id : Nat} {a : Account} (hs : s.toSystem.WellFormed)
    (ha : Loaded id a s) : Loaded id a (s.created h owner m) := by
  obtain ⟨m', hm, hspoke⟩ := ha.bound
  refine ⟨⟨m', ?_, hspoke⟩, ha.supply, ha.debt⟩
  exact (SortedMap.get?_set_ne _ _ (ha.ne_next hs)).trans hm

theorem System.WellFormed.created (hs : s.toSystem.WellFormed) :
    (s.created h owner m).toSystem.WellFormed := by
  constructor
  · exact fun id owner m => hs.sound id owner m
  · intro id hnone
    refine hs.orphan id ?_
    have hget : (s.store.metas.set s.nft.nextTokenId m).get? id = none := hnone
    rw [SortedMap.get?_set] at hget
    split at hget
    · cases hget
    · exact hget
  · intro id
    have hlive := hs.live id
    show (s.store.metas.set s.nft.nextTokenId m).contains id =
      (s.nft.tokens.set s.nft.nextTokenId ()).contains id
    unfold SortedMap.contains at hlive ⊢
    rw [SortedMap.get?_set, SortedMap.get?_set]
    split
    · rfl
    · exact hlive
  · intro id hid
    show id < s.nft.nextTokenId + 1
    have hget : ((s.nft.tokens.set s.nft.nextTokenId ()).get? id).isSome = true := hid
    rw [SortedMap.get?_set] at hget
    split at hget
    · omega
    · exact (hs.fresh id hget).trans (Nat.lt_succ_self _)
  · exact hs.limits

theorem Balanced.created (hs : Balanced start [] 0 s) :
    Balanced start [] 0 (s.created h owner m) := by
  refine ⟨hs.wellFormed.created, ⟨hs.evolves.counter.trans (Nat.le_succ _), ?_⟩, hs.persisted, ?_⟩
  · intro id hid m' hm'
    have hne : id ≠ s.nft.nextTokenId := (hid.trans_le hs.evolves.counter).ne
    exact hs.evolves.metas id hid m' ((SortedMap.get?_set_ne _ _ hne).symm.trans hm')
  · show s.recorded = ControllerStore.booksBesides
      { s.store with metas := s.store.metas.set s.nft.nextTokenId m } [] + 0
    -- The new account adds nothing: there are no positions under its id.
    obtain ⟨hsupply, hdebt⟩ := hs.wellFormed.orphan _ hs.wellFormed.next_unbound
    rw [hs.books]
    congr 1
    unfold ControllerStore.booksBesides
    rw [SortedMap.sumBy_set, SortedMap.weight_of_none _ hs.wellFormed.next_unbound, sub_zero]
    have hempty : positionBooks m.spokeId
        (ControllerStore.getSupplyPositions s.store s.nft.nextTokenId)
        (ControllerStore.getDebtPositions s.store s.nft.nextTokenId) = 0 := by
      rw [ControllerStore.getSupplyPositions, ControllerStore.getDebtPositions, hsupply, hdebt]
      rfl
    exact (add_eq_left.mpr hempty).symm

end Created

/-- The account of `r` was created: it holds nothing, and its id is none of the known ones. -/
structure Fresh (start : System W) (known : List (Nat × Account)) (spokeId : Nat)
    (r : Nat × Account) (s : Invocation W) : Prop where
  balanced : Balanced start [] 0 s
  knows : Knows known s
  loaded : Loaded r.1 r.2 s
  supply : r.2.supplyPositions = .empty
  spoke : r.2.spokeId = spokeId
  ne : ∀ e ∈ known, e.1 ≠ r.1

theorem Balanced.fresh {start : System W} {known : List (Nat × Account)} {s : Invocation W}
    (hs : Balanced start [] 0 s) (hknown : Knows known s) {owner : Address} {spokeId : Nat}
    {mode : PositionMode} :
    Fresh start known spokeId
      (s.nft.nextTokenId, ⟨owner, spokeId, mode, .empty, .empty⟩)
      (s.created h owner ⟨spokeId, mode⟩) := by
  have hwf := hs.wellFormed
  obtain ⟨hsupply, hdebt⟩ := hwf.orphan _ hwf.next_unbound
  refine ⟨hs.created, fun e he => (hknown e he).created hwf,
    ⟨⟨_, SortedMap.get?_set_self _ _ _, rfl⟩, ?_, ?_⟩, rfl, rfl,
    fun e he => (hknown e he).ne_next hwf⟩
  · show (s.store.supplyPositions.get? s.nft.nextTokenId).getD .empty = _
    rw [hsupply, Option.getD_none]
  · show (s.store.borrowPositions.get? s.nft.nextTokenId).getD .empty = _
    rw [hdebt, Option.getD_none]

namespace Account

/-- **Creation.** A new account takes an id no account has had, and holds nothing. -/
theorem createAccountWith_keeps (start : System W) (known : List (Nat × Account))
    {owner : Address} {spokeId : Nat} {mode : PositionMode} {admission : SpokeAdmission} :
    Keeps (fun s => Balanced start [] 0 s ∧ Knows known s)
      (createAccountWith h owner spokeId mode admission) (Fresh start known spokeId) := by
  have hstable : Stable fun s : Invocation W => Balanced start [] 0 s ∧ Knows known s :=
    balanced_stable.and knows_stable
  have hmint : Keeps (fun s => Balanced start [] 0 s ∧ Knows known s) (do
      let accountId ← nftMintCall h owner
      modifyStore fun s => { s with metas := s.metas.set accountId { spokeId, mode } }
      return (accountId, (⟨owner, spokeId, mode, .empty, .empty⟩ : Account)) : Ctrl W (Nat × Account))
      (Fresh start known spokeId) := by
    refine .bind nftMintCall_keeps fun id => .bind (.modifyStore (Q := fun _ s => ∃ t,
      (Balanced start [] 0 t ∧ Knows known t) ∧ id = t.nft.nextTokenId ∧
        s = t.created h owner ⟨spokeId, mode⟩) ?_) fun _ => .pure ?_
    · rintro s ⟨t, ht, rfl, rfl⟩
      exact ⟨t, ht, rfl, rfl⟩
    · rintro s ⟨t, ⟨ht, hknown⟩, rfl, rfl⟩
      exact ht.fresh hknown
  refine .assert fun _ => ?_
  cases admission with
  | activeOnly => exact .read h 0 hstable Context.activeSpoke_reads fun _ => hmint
  | allowDeprecated => exact .read h 0 hstable Context.spokeConfig_reads fun _ => hmint

theorem loadOrCreateAccount_keeps {start : System W} {caller : Address} {accountId spokeId : Nat}
    {mode : PositionMode} {guard : AccountGuard} :
    Keeps (Balanced start [] 0) (loadOrCreateAccount h caller accountId spokeId mode guard)
      fun r s => Balanced start [] 0 s ∧ Loaded r.1 r.2 s := by
  refine .ite (fun _ => ?_) fun _ => ?_
  · refine ((createAccountWith_keeps start []).pre ?_).post ?_
    · exact fun s hs => ⟨hs, fun e he => by cases he⟩
    · exact fun r s hs => ⟨hs.balanced, hs.loaded⟩
  · exact .bind (Storage.getAccount_keeps balanced_stable) fun a =>
      .read h 0 (balanced_stable.and loaded_stable) requireGuard_reads fun _ =>
        .pure fun s hs => hs

end Account

/-! ## Closing -/

/-- As `Holding`, with the usage rows written. -/
structure Settling (base : System W) (spokeId : Nat) (others : Books) (a : Account)
    (s : Invocation W) : Prop where
  store : ∃ rows, s.store = { base.store with spokeUsage := rows }
  nft : s.nft = base.nft
  decimals : s.pool.decimals = base.pool.decimals
  spoke : a.spokeId = spokeId
  positive : a.Positive
  persisted : s.recorded = s.toSystem.recorded
  books : s.recorded = others + a.books

/-- Writing the rows leaves what is recorded as it was. -/
theorem Context.persistSpokeUsage_keeps {base : System W} {spokeId : Nat} {others : Books}
    {a : Account} :
    Keeps (Holding base spokeId others a) (Context.persistSpokeUsage : Ctrl W Unit)
      fun _ => Settling base spokeId others a := by
  refine Triple.bind Triple.get fun t => ?_
  cases hctx : t.cache.spokeUsage with
  | none =>
    refine Keeps.pure ?_
    rintro s ⟨hs, rfl⟩
    refine ⟨⟨base.store.spokeUsage, hs.store⟩, hs.nft, hs.decimals, hs.spoke, hs.positive, ?_,
      hs.books⟩
    rw [Invocation.recorded, System.recorded]
    congr 1
    refine rowBooks_congr fun id market side => ?_
    rw [usageRow_value, hctx]
    rfl
  | some ctx =>
    refine Keeps.modifyStore ?_
    rintro s ⟨hs, rfl⟩
    obtain ⟨rows, hrows⟩ := ctx.persist_eq t.store
    -- The buffer still shadows the rows it was written to, with the same values.
    have hsame : ∀ id market side,
        ((Invocation.usageRow { t with store := ctx.persist t.store }) id market).elim 0
          (UsageSide.scaled side) = (ctx.persist t.store).usageOf id market side := by
      intro id market side
      rw [usageRow_value]
      simp only [hctx, SpokeUsageContext.usageOf_persist]
      split
      · rename_i hid
        subst hid
        unfold SpokeUsageContext.row
        cases hget : ctx.usage.get? market with
        | some usage => rfl
        | none =>
          have hval : (ctx.persist t.store).usageOf ctx.spokeId market side =
              if ctx.spokeId = ctx.spokeId then (ctx.row t.store market).elim 0 side.scaled
              else t.store.usageOf ctx.spokeId market side := SpokeUsageContext.usageOf_persist
          rw [if_pos rfl, SpokeUsageContext.row, hget] at hval
          exact hval
      · rfl
    have hrec : Invocation.recorded { t with store := ctx.persist t.store } = t.recorded := by
      rw [Invocation.recorded, Invocation.recorded]
      congr 1
      refine rowBooks_congr fun id market side => ?_
      rw [hsame, usageRow_value, hctx]
    refine ⟨⟨rows, ?_⟩, hs.nft, hs.decimals, hs.spoke, hs.positive, ?_, hrec.trans hs.books⟩
    · rw [← hs.store]
      exact hrows
    · rw [Invocation.recorded, System.recorded]
      congr 1
      exact rowBooks_congr hsame

/-- Records are read off the pool, the stored rows and the buffer. -/
theorem Invocation.recorded_congr {s s' : Invocation W} (hm : s'.pool.markets = s.pool.markets)
    (hu : s'.store.spokeUsage = s.store.spokeUsage)
    (hc : s'.cache.spokeUsage = s.cache.spokeUsage) :
    s'.recorded = s.recorded ∧ s'.toSystem.recorded = s.toSystem.recorded := by
  have hget : s'.store.getSpokeUsage = s.store.getSpokeUsage := by
    funext id market
    rw [ControllerStore.getSpokeUsage, hu, ← ControllerStore.getSpokeUsage]
  refine ⟨?_, ?_⟩
  · rw [Invocation.recorded, Invocation.recorded, hm]
    congr 2
    funext id market
    unfold Invocation.usageRow SpokeUsageContext.row
    rw [hc, hget]
  · rw [System.recorded, System.recorded, hm, hget]

/-- The account `id` was taken out of `base`, which the invocation brought about from `start`. -/
structure Opened (start base : System W) (ids : List Nat) (id spokeId : Nat) : Prop where
  wellFormed : base.WellFormed
  evolves : start.Evolves base
  bound : ∃ m, base.store.metas.get? id = some m ∧ m.spokeId = spokeId
  notMem : id ∉ ids

namespace ControllerStore

/-- The store after the chosen sides of an account were written. -/
def writeSides (s : ControllerStore) (id : Nat) (a : Account) (sides : Positions.PositionSides) :
    ControllerStore :=
  let s := if sides ≠ .debt then s.setSupplyPositions id a.supplyPositions else s
  if sides ≠ .supply then s.setDebtPositions id a.borrowPositions else s

/-- `b` is what the store holds once the chosen sides of `a` are written. -/
structure Saves (s : ControllerStore) (id : Nat) (sides : Positions.PositionSides)
    (a b : Account) : Prop where
  supply : b.supplyPositions =
    if sides = .debt then s.getSupplyPositions id else a.supplyPositions
  debt : b.borrowPositions = if sides = .supply then s.getDebtPositions id else a.borrowPositions

theorem Saves.writes {s : ControllerStore} {id : Nat} {sides : Positions.PositionSides}
    {a b : Account} (hb : s.Saves id sides a b) : s.Writes id b (s.writeSides id a sides) := by
  obtain ⟨hsupply, hdebt⟩ := hb
  cases sides with
  | supply =>
    have hs : b.supplyPositions = a.supplyPositions := hsupply
    show s.Writes id b (s.setSupplyPositions id a.supplyPositions)
    rw [← hs]
    exact writes_supply hdebt.symm
  | debt =>
    have hd : b.borrowPositions = a.borrowPositions := hdebt
    show s.Writes id b (s.setDebtPositions id a.borrowPositions)
    rw [← hd]
    exact (writes_self (a := { b with borrowPositions := s.getDebtPositions id })
      hsupply.symm rfl).setDebt rfl
  | both =>
    have hs : b.supplyPositions = a.supplyPositions := hsupply
    have hd : b.borrowPositions = a.borrowPositions := hdebt
    show s.Writes id b
      ((s.setSupplyPositions id a.supplyPositions).setDebtPositions id a.borrowPositions)
    rw [← hs, ← hd]
    exact (writes_supply (a := { b with borrowPositions := s.getDebtPositions id })
      rfl).setDebt rfl

end ControllerStore

theorem Settling.wellFormed {base : System W} {spokeId : Nat} {others : Books} {a : Account}
    {s : Invocation W} (hs : Settling base spokeId others a s) (hbase : base.WellFormed) :
    s.toSystem.WellFormed := by
  obtain ⟨rows, hrows⟩ := hs.store
  constructor
  · rw [hs.decimals, hrows]
    exact hbase.sound
  · rw [hrows]
    exact hbase.orphan
  · rw [hrows, hs.nft]
    exact hbase.live
  · rw [hs.nft]
    exact hbase.fresh
  · rw [hrows]
    exact hbase.limits

/-- What the account had is nobody's any more, and it may be removed. -/
theorem Settling.balanced {start base : System W} {ids : List Nat} {rest others : Books}
    {spokeId spokeId' id : Nat} {a : Account} {s : Invocation W}
    (hs : Settling base spokeId others a s) (ho : Opened start base ids id spokeId')
    (hbooks : others + a.books = base.store.booksBesides (id :: ids) + rest) :
    Balanced start (id :: ids) rest s := by
  obtain ⟨rows, hrows⟩ := hs.store
  refine ⟨hs.wellFormed ho.wellFormed, ⟨?_, ?_⟩, hs.persisted, ?_⟩
  · rw [hs.nft]
    exact ho.evolves.counter
  · rw [hrows]
    exact ho.evolves.metas
  · rw [hs.books, hbooks, hrows]
    rfl

/-- **Closing.** Once it is written, the account counts among the stored ones again. -/
theorem Settling.close {start base : System W} {ids : List Nat} {rest others : Books}
    {spokeId id : Nat} {a b : Account} {s : Invocation W} {st : ControllerStore}
    (hs : Settling base spokeId others a s) (ho : Opened start base ids id b.spokeId)
    (hb : b.Sound base.pool.decimals) (hw : s.store.Writes id b st)
    (hbooks : others + a.books = base.store.booksBesides (id :: ids) + rest + b.books) :
    Balanced start ids rest { s with store := st } ∧ Loaded id b { s with store := st } := by
  obtain ⟨m, hm, hspoke⟩ := ho.bound
  obtain ⟨rows, hrows⟩ := hs.store
  have hmetas : s.store.metas = base.store.metas := by rw [hrows]
  have hm' : s.store.metas.get? id = some m := hmetas ▸ hm
  have hrec : Invocation.recorded { s with store := st } = s.recorded ∧
      System.recorded { s.toSystem with store := st } = s.toSystem.recorded :=
    Invocation.recorded_congr rfl hw.usage rfl
  have hm'' : st.metas.get? id = some m := hw.metas ▸ hm'
  refine ⟨⟨?_, ⟨?_, ?_⟩, ?_, ?_⟩, ⟨⟨m, hm'', hspoke⟩, hw.supply, hw.debt⟩⟩
  · exact (hs.wellFormed ho.wellFormed).writes hw hm' (hs.decimals ▸ hb) rfl rfl
  · show start.nft.nextTokenId ≤ s.nft.nextTokenId
    rw [hs.nft]
    exact ho.evolves.counter
  · show ∀ id < start.nft.nextTokenId, ∀ m, st.metas.get? id = some m → _
    rw [hw.metas, hmetas]
    exact ho.evolves.metas
  · rw [hrec.1, hrec.2, hs.persisted]
  · have hsame : s.store.booksBesides (id :: ids) = base.store.booksBesides (id :: ids) := by
      rw [hrows]
      rfl
    show Invocation.recorded { s with store := st } = st.booksBesides ids + rest
    rw [hrec.1, hs.books, hbooks, ControllerStore.booksBesides_take hm'' ho.notMem,
      hw.booksBesides List.mem_cons_self, hsame, hw.supply, hw.debt, hspoke, ← Account.books]
    abel

/-- An account that holds nothing may be left out of the total. -/
theorem Balanced.leave {start : System W} {ids : List Nat} {rest : Books} {s : Invocation W}
    {id : Nat} {a : Account} (hs : Balanced start ids rest s) (ha : Loaded id a s)
    (hid : id ∉ ids) (hempty : a.books = 0) : Balanced start (id :: ids) rest s := by
  obtain ⟨m, hm, hspoke⟩ := ha.bound
  refine ⟨hs.wellFormed, hs.evolves, hs.persisted, ?_⟩
  rw [hs.books, ControllerStore.booksBesides_take hm hid, ha.supply, ha.debt, hspoke,
    ← Account.books, hempty, add_zero]

/-- The term of an account in hand is zero, and gone once the account is removed. -/
theorem ControllerStore.booksBesides_remove (s : ControllerStore) {id : Nat} {ids : List Nat} :
    s.booksBesides (id :: ids) = (s.removeAccountEntry id).booksBesides ids := by
  unfold booksBesides removeAccountEntry
  have herase := s.metas.sumBy_erase (fun id' m => if id' ∈ id :: ids then (0 : Books)
    else positionBooks m.spokeId (s.getSupplyPositions id') (s.getDebtPositions id')) id
  have hzero : s.metas.weight (fun id' m => if id' ∈ id :: ids then (0 : Books)
      else positionBooks m.spokeId (s.getSupplyPositions id') (s.getDebtPositions id')) id = 0 := by
    unfold SortedMap.weight
    cases s.metas.get? id with
    | none => rfl
    | some m => exact if_pos List.mem_cons_self
  rw [hzero, sub_zero] at herase
  rw [← herase]
  refine SortedMap.sumBy_congr fun id' m hm => ?_
  rw [SortedMap.get?_erase] at hm
  split at hm
  · cases hm
  · rename_i hne
    unfold getSupplyPositions getDebtPositions
    dsimp only
    rw [SortedMap.get?_erase_ne _ hne, SortedMap.get?_erase_ne _ hne]
    simp only [List.mem_cons, hne, false_or]

/-- The state after an account was removed and its NFT burned. -/
def Invocation.removed (h : ControllerHost W) (id : Nat) (s : Invocation W) : Invocation W :=
  { s with
    store := s.store.removeAccountEntry id
    nft := { s.nft with tokens := s.nft.tokens.erase id }
    pool.world := h.nftRelease s.pool.world id }

/-- The account that goes did not count. -/
theorem Balanced.removed {start : System W} {ids : List Nat} {rest : Books} {s : Invocation W}
    {id : Nat} (hs : Balanced start (id :: ids) rest s) :
    Balanced start ids rest (s.removed h id) := by
  have hwf := hs.wellFormed
  have hrec : (s.removed h id).recorded = s.recorded ∧
      (s.removed h id).toSystem.recorded = s.toSystem.recorded :=
    Invocation.recorded_congr rfl rfl rfl
  refine ⟨⟨fun id' owner m => ?_, fun id' hnone => ?_, fun id' => ?_, fun id' hid => ?_,
    hwf.limits⟩, ⟨hs.evolves.counter, fun id' hid m hm => ?_⟩, ?_, ?_⟩
  · by_cases hne : id' = id
    · refine Account.sound_empty ?_ ?_
      · show (((s.store.supplyPositions.erase id).get? id').getD .empty) = _
        rw [hne, SortedMap.get?_erase_self, Option.getD_none]
      · show (((s.store.borrowPositions.erase id).get? id').getD .empty) = _
        rw [hne, SortedMap.get?_erase_self, Option.getD_none]
    · refine (hwf.sound id' owner m).congr ?_ ?_
      · show (((s.store.supplyPositions.erase id).get? id').getD .empty) = _
        rw [SortedMap.get?_erase_ne _ hne]
        rfl
      · show (((s.store.borrowPositions.erase id).get? id').getD .empty) = _
        rw [SortedMap.get?_erase_ne _ hne]
        rfl
  · show (s.store.supplyPositions.erase id).get? id' = none ∧
      (s.store.borrowPositions.erase id).get? id' = none
    have hget : (s.store.metas.erase id).get? id' = none := hnone
    rw [SortedMap.get?_erase] at hget ⊢
    rw [SortedMap.get?_erase]
    split
    · exact ⟨rfl, rfl⟩
    · rename_i hne
      rw [if_neg hne] at hget
      exact hwf.orphan id' hget
  · have hlive := hwf.live id'
    show (s.store.metas.erase id).contains id' = (s.nft.tokens.erase id).contains id'
    unfold SortedMap.contains at hlive ⊢
    rw [SortedMap.get?_erase, SortedMap.get?_erase]
    split
    · rfl
    · exact hlive
  · have hget : ((s.nft.tokens.erase id).get? id').isSome = true := hid
    rw [SortedMap.get?_erase] at hget
    split at hget
    · cases hget
    · exact hwf.fresh id' hget
  · have hget : (s.store.metas.erase id).get? id' = some m := hm
    rw [SortedMap.get?_erase] at hget
    split at hget
    · cases hget
    · exact hs.evolves.metas id' hid m hget
  · rw [hrec.1, hrec.2, hs.persisted]
  · rw [hrec.1, hs.books]
    congr 1
    exact s.store.booksBesides_remove

namespace Account

/-- **Removal.** The account and its NFT go together. -/
theorem removeAccountAndBurnNft_keeps {start : System W} {ids : List Nat} {rest : Books}
    {id : Nat} :
    Keeps (Balanced start (id :: ids) rest) (removeAccountAndBurnNft h id)
      fun _ => Balanced start ids rest := by
  refine .bind (.modifyStore (Q := fun _ s => ∃ t, Balanced start (id :: ids) rest t ∧
    s = { t with store := t.store.removeAccountEntry id }) fun s hs => ⟨s, hs, rfl⟩) fun _ => ?_
  refine .assert fun _ => Triple.bind Triple.get fun t => Keeps.assert fun _ => Triple.modify ?_
  rintro s hI ⟨⟨t', hs, rfl⟩, -⟩
  exact ⟨hI, hs.removed⟩

theorem isEmpty_books {a : Account} (hempty : a.isEmpty = true) : a.books = 0 := by
  rw [isEmpty, Bool.and_eq_true, SortedMap.isEmpty_iff, SortedMap.isEmpty_iff] at hempty
  rw [books, hempty.1, hempty.2]
  rfl

theorem cleanupAccountIfEmpty_keeps {start : System W} {ids : List Nat} {rest : Books}
    {id : Nat} {a b : Account} (hid : id ∉ ids) (hs : a.supplyPositions = b.supplyPositions)
    (hd : a.borrowPositions = b.borrowPositions) :
    Keeps (fun s => Balanced start ids rest s ∧ Loaded id b s) (cleanupAccountIfEmpty h a id)
      fun _ => Balanced start ids rest := by
  refine .ite (fun hempty => ?_) fun _ => .pure fun s hs => hs.1
  refine removeAccountAndBurnNft_keeps.pre fun s hb => hb.1.leave hb.2 hid ?_
  refine isEmpty_books ?_
  rwa [isEmpty, ← hs, ← hd]

end Account

namespace Positions

theorem persistAccountPositions_keeps {start base : System W} {ids : List Nat}
    {rest others : Books} {spokeId id : Nat} {a b : Account} {sides : PositionSides}
    {removeIfEmpty : Bool} (ho : Opened start base ids id b.spokeId)
    (hb : b.Sound base.pool.decimals) (hsave : base.store.Saves id sides a b)
    (hbooks : others + a.books = base.store.booksBesides (id :: ids) + rest + b.books)
    (hremove : removeIfEmpty = true →
      a.supplyPositions = b.supplyPositions ∧ a.borrowPositions = b.borrowPositions) :
    Keeps (Settling base spokeId others a)
      (persistAccountPositions h id a sides removeIfEmpty)
      fun _ s => Balanced start ids rest s ∧ (removeIfEmpty = false → Loaded id b s) := by
  refine .bind (.modifyStore (Q := fun _ s => ∃ t, Settling base spokeId others a t ∧
    s = { t with store := if sides ≠ .debt then t.store.setSupplyPositions id a.supplyPositions
      else t.store }) fun s hs => ⟨s, hs, rfl⟩) fun _ => .bind (.modifyStore (Q := fun _ s =>
    Balanced start ids rest s ∧ Loaded id b s) ?_) fun _ => ?_
  · rintro _ ⟨t, ht, rfl⟩
    obtain ⟨rows, hrows⟩ := ht.store
    have hsave' : t.store.Saves id sides a b := by
      rw [hrows]
      exact ⟨hsave.supply, hsave.debt⟩
    exact ht.close ho hb hsave'.writes hbooks
  · refine .ite (fun htrue => ?_) fun hfalse => .pure fun s hs => ⟨hs.1, fun _ => hs.2⟩
    obtain ⟨hs, hd⟩ := hremove htrue
    refine (Account.cleanupAccountIfEmpty_keeps ho.notMem hs hd).post fun _ s hs =>
      ⟨hs, fun hfalse => ?_⟩
    rw [htrue] at hfalse
    cases hfalse

/-- **Write-back.** The rows are written, then the account, or its removal. -/
theorem finalizePositionFlow_keeps {start base : System W} {ids : List Nat}
    {rest others : Books} {spokeId id : Nat} {a b : Account} {sides : PositionSides}
    {removeIfEmpty : Bool} (ho : Opened start base ids id b.spokeId)
    (hb : b.Sound base.pool.decimals) (hsave : base.store.Saves id sides a b)
    (hbooks : others + a.books = base.store.booksBesides (id :: ids) + rest + b.books)
    (hremove : removeIfEmpty = true →
      a.supplyPositions = b.supplyPositions ∧ a.borrowPositions = b.borrowPositions) :
    Keeps (Holding base spokeId others a)
      (finalizePositionFlow h id a sides removeIfEmpty)
      fun _ s => Balanced start ids rest s ∧ (removeIfEmpty = false → Loaded id b s) :=
  .bind Context.persistSpokeUsage_keeps fun _ =>
    persistAccountPositions_keeps ho hb hsave hbooks hremove

/-- Writing an account leaves the others as they are stored, and the pool alone. -/
theorem finalizePositionFlow_others {id id' : Nat} {a b : Account} {sides : PositionSides}
    {decimals : HubAssetKey → Option Nat} (hne : id' ≠ id) :
    Keeps (fun s => Loaded id' b s ∧ s.pool.decimals = decimals)
      (finalizePositionFlow h id a sides false)
      fun _ s => Loaded id' b s ∧ s.pool.decimals = decimals := by
  have hwrite : ∀ {f : ControllerStore → ControllerStore},
      (∀ st, (f st).metas = st.metas ∧ (f st).getSupplyPositions id' = st.getSupplyPositions id' ∧
        (f st).getDebtPositions id' = st.getDebtPositions id') →
      Keeps (fun s => Loaded id' b s ∧ s.pool.decimals = decimals) (modifyStore f : Ctrl W Unit)
        fun _ s => Loaded id' b s ∧ s.pool.decimals = decimals := by
    refine fun hf => .modifyStore fun s hs => ⟨⟨?_, ?_, ?_⟩, hs.2⟩
    · exact (hf s.store).1 ▸ hs.1.bound
    · exact (hf s.store).2.1.trans hs.1.supply
    · exact (hf s.store).2.2.trans hs.1.debt
  refine .bind (Q := fun _ s => Loaded id' b s ∧ s.pool.decimals = decimals) ?_ fun _ =>
    .bind (hwrite fun st => ?_) fun _ => .bind (hwrite fun st => ?_) fun _ => .pure fun _ hs => hs
  · refine Triple.bind Triple.get fun t => ?_
    split
    · rename_i ctx _
      refine (hwrite fun st => ?_).pre fun s hs => hs.1
      obtain ⟨rows, hrows⟩ := ctx.persist_eq st
      rw [hrows]
      exact ⟨rfl, rfl, rfl⟩
    · exact Keeps.pure fun s hs => hs.1
  · split
    · have hw : st.Writes id { a with borrowPositions := st.getDebtPositions id }
          (st.setSupplyPositions id a.supplyPositions) := ControllerStore.writes_supply rfl
      exact ⟨hw.metas, hw.getSupply_ne hne, hw.getDebt_ne hne⟩
    · exact ⟨rfl, rfl, rfl⟩
  · split
    · have hself : st.Writes id (st.account id 0 ⟨0, .normal⟩) st :=
        ControllerStore.writes_self rfl rfl
      have hw : st.Writes id { a with supplyPositions := st.getSupplyPositions id }
          (st.setDebtPositions id a.borrowPositions) := hself.setDebt rfl
      exact ⟨hw.metas, hw.getSupply_ne hne, hw.getDebt_ne hne⟩
    · exact ⟨rfl, rfl, rfl⟩

end Positions

end Lending
