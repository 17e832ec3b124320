import LendingXlm.PriceAggregator.Composition

/-!
# Prices fail closed

`Priced key feed leaves`: the feed is a price of the key composed from the leaves, and every node
on the way was usable at its own policy: positive, neither in the future nor too old, inside its
sanity band, the two legs of a dual source within tolerance.

* `Priced.leaves_usable`: every leaf is usable, and no record behind it is older than the feed;
* `resolveOutcome_sound`, `resolveNested_sound`: an outcome without a failure is priced, whatever
  was cached before;
* `prices_fail_closed`: so is every answer of `prices`.
-/

namespace Lending.PriceAggregator

open Transaction

variable (p : Providers) (reg : Registry)

/-- A price that the oracle's own policy accepts. -/
structure NodeUsable (oracle : AssetOracle) (feed : PriceFeedRaw) : Prop where
  pos : 0 < feed.priceWad
  not_future : feed.timestamp ≤ p.nowSecs + maxFutureSkewSeconds
  fresh : p.nowSecs ≤ feed.timestamp + oracle.maxPriceStaleSeconds
  above_min : oracle.minSanityPriceWad ≤ feed.priceWad
  below_max : feed.priceWad ≤ oracle.maxSanityPriceWad

/-- The feed blends the two readings, which agree. -/
structure Blended (oracle : AssetOracle) (feed : PriceFeedRaw) (primary anchor : Reading) :
    Prop where
  primary_pos : 0 < primary.priceWad
  anchor_pos : 0 < anchor.priceWad
  tolerance : Rounding.halfUpDiv (max anchor.priceWad primary.priceWad * bps)
    (min anchor.priceWad primary.priceWad) ≤ oracle.tolerance.upperRatioBps
  spread : primary.nature = .market → anchor.nature = .market →
    max primary.timestamp anchor.timestamp ≤
      min primary.timestamp anchor.timestamp + maxLegAgeSpreadSeconds
  above : min primary.priceWad anchor.priceWad ≤ feed.priceWad
  below : feed.priceWad ≤ max primary.priceWad anchor.priceWad
  oldest : feed.timestamp = min primary.timestamp anchor.timestamp

/-- The feed is a usable price of the oracle, read from its one or two sources. -/
def NodePriced (M : PriceKey → PriceFeedRaw → List Leaf → Prop) (oracle : AssetOracle)
    (feed : PriceFeedRaw) (leaves : List Leaf) : Prop :=
  feed.assetDecimals = oracle.assetDecimals ∧ NodeUsable p oracle feed ∧
    ((∃ source r, oracle.sources = [source] ∧ ReadingPriced p M oracle source r leaves ∧
        feed.priceWad = r.priceWad ∧ feed.timestamp = r.timestamp) ∨
      ∃ source source' primary anchor l l', oracle.sources = [source, source'] ∧
        ReadingPriced p M oracle source primary l ∧ ReadingPriced p M oracle source' anchor l' ∧
        leaves = l ++ l' ∧ Blended oracle feed primary anchor)

/-- The feed is a price of the key with these leaves; `Priced.inv` is the recursion this is the
least solution of. -/
inductive Priced : PriceKey → PriceFeedRaw → List Leaf → Prop
  | node {key : PriceKey} {oracle : AssetOracle} {feed : PriceFeedRaw} {leaves : List Leaf}
      (M : PriceKey → PriceFeedRaw → List Leaf → Prop)
      (nested : ∀ k f l, M k f l → Priced k f l)
      (registered : reg.getOracle key = some oracle)
      (priced : NodePriced p M oracle feed leaves) : Priced key feed leaves

variable {p reg}

theorem ReadingPriced.mono {M M' : PriceKey → PriceFeedRaw → List Leaf → Prop}
    {oracle : AssetOracle} {source : PriceSource} {r : Reading} {leaves : List Leaf}
    (h : ReadingPriced p M oracle source r leaves) (hM : ∀ k f l, M k f l → M' k f l) :
    ReadingPriced p M' oracle source r leaves :=
  ⟨h.1.mono p hM, h.2⟩

theorem NodePriced.mono {M M' : PriceKey → PriceFeedRaw → List Leaf → Prop}
    {oracle : AssetOracle} {feed : PriceFeedRaw} {leaves : List Leaf}
    (h : NodePriced p M oracle feed leaves) (hM : ∀ k f l, M k f l → M' k f l) :
    NodePriced p M' oracle feed leaves := by
  obtain ⟨hdec, hnode, h⟩ := h
  refine ⟨hdec, hnode, ?_⟩
  rcases h with ⟨source, r, hs, hr, h⟩ | ⟨source, source', a, b, l, l', hs, ha, hb, h⟩
  · exact .inl ⟨source, r, hs, hr.mono hM, h⟩
  · exact .inr ⟨source, source', a, b, l, l', hs, ha.mono hM, hb.mono hM, h⟩

/-- A price is composed of prices. -/
theorem Priced.inv {key : PriceKey} {feed : PriceFeedRaw} {leaves : List Leaf}
    (h : Priced p reg key feed leaves) :
    ∃ oracle, reg.getOracle key = some oracle ∧ NodePriced p (Priced p reg) oracle feed leaves := by
  obtain ⟨M, hM, hreg, hn⟩ := h
  exact ⟨_, hreg, hn.mono hM⟩

/-! ## Leaves -/

/-- No record behind the leaves is older than `ts`, and all leaves are usable. -/
def LeavesUsable (ts : Nat) (leaves : List Leaf) : Prop :=
  ∀ leaf ∈ leaves, leaf.Usable p ∧ ∀ stamp ∈ leaf.stamps, ts ≤ stamp

theorem LeavesUsable.anti {ts ts' : Nat} {leaves : List Leaf}
    (h : LeavesUsable (p := p) ts' leaves) (hle : ts ≤ ts') : LeavesUsable (p := p) ts leaves :=
  fun leaf hleaf => ⟨(h leaf hleaf).1, fun stamp hs => le_trans hle ((h leaf hleaf).2 stamp hs)⟩

theorem LeavesUsable.append {ts : Nat} {l l' : List Leaf} (h : LeavesUsable (p := p) ts l)
    (h' : LeavesUsable (p := p) ts l') : LeavesUsable (p := p) ts (l ++ l') := by
  intro leaf hleaf
  rcases List.mem_append.mp hleaf with hl | hl
  · exact h leaf hl
  · exact h' leaf hl

theorem Leaf.Usable.single {leaf : Leaf} (h : leaf.Usable p) :
    LeavesUsable (p := p) leaf.observation.timestamp [leaf] := by
  intro leaf' hl
  rw [List.mem_singleton.mp hl]
  exact ⟨h, h.oldest.2⟩

theorem foldl_min_le {α : Type} (f : α → Nat) (l : List α) :
    ∀ ts, l.foldl (fun ts c => min ts (f c)) ts ≤ ts ∧
      ∀ c ∈ l, l.foldl (fun ts c => min ts (f c)) ts ≤ f c := by
  induction l with
  | nil => exact fun ts => ⟨le_refl ts, nofun⟩
  | cons c l ih =>
    intro ts
    obtain ⟨h1, h2⟩ := ih (min ts (f c))
    refine ⟨le_trans h1 (min_le_left _ _), ?_⟩
    rintro c' (_ | ⟨_, hc'⟩)
    · exact le_trans h1 (min_le_right _ _)
    · exact h2 c' hc'

theorem exists_of_forall₂ {α β : Type} {R : α → β → Prop} {l : List α} {l' : List β}
    (h : List.Forall₂ R l l') {b : β} (hb : b ∈ l') : ∃ a, R a b := by
  induction h with
  | nil => cases hb
  | cons hR _ ih =>
    rcases List.mem_cons.mp hb with rfl | hb
    · exact ⟨_, hR⟩
    · exact ih hb

/-- The leaves of a leg are usable, and none is older than what was read. -/
theorem LegPriced.leaves_usable {M : PriceKey → PriceFeedRaw → List Leaf → Prop} {decimals : Nat}
    {source : PriceSource} {o : OracleObservation} {leaves : List Leaf}
    (h : LegPriced p M decimals source o leaves)
    (hM : ∀ k f l, M k f l → LeavesUsable (p := p) f.timestamp l) :
    LeavesUsable (p := p) o.timestamp leaves := by
  cases source with
  | feed feed =>
    obtain ⟨leaf, hleaf, -, rfl, rfl⟩ := h
    exact hleaf.single
  | scaled scaled =>
    obtain ⟨leaf, quote, rest, hleaf, -, -, -, hquote, -, hts, rfl⟩ := h
    rw [hts]
    exact (hleaf.single.anti (min_le_left _ _)).append ((hM _ _ _ hquote).anti (min_le_right _ _))
  | aquariusLp lp =>
    obtain ⟨a, b, la, lb, ha, hb, -, hts, rfl⟩ := h
    rw [hts]
    exact ((hM _ _ _ ha).anti (min_le_left _ _)).append ((hM _ _ _ hb).anti (min_le_right _ _))
  | aquariusStableLp lp =>
    obtain ⟨a, b, la, lb, ha, hb, -, hts, rfl⟩ := h
    rw [hts]
    exact ((hM _ _ _ ha).anti (min_le_left _ _)).append ((hM _ _ _ hb).anti (min_le_right _ _))
  | curveStableLp lp =>
    obtain ⟨coins, hcoins, -, hts, rfl⟩ := h
    rw [hts]
    intro leaf hleaf
    obtain ⟨c, hc, hl⟩ := List.mem_flatMap.mp hleaf
    obtain ⟨coin, hcoin⟩ := exists_of_forall₂ hcoins hc
    exact (hM _ _ _ hcoin).anti ((foldl_min_le _ coins p.nowSecs).2 c hc) leaf hl

theorem ReadingPriced.leaves_usable {M : PriceKey → PriceFeedRaw → List Leaf → Prop}
    {oracle : AssetOracle} {source : PriceSource} {r : Reading} {leaves : List Leaf}
    (h : ReadingPriced p M oracle source r leaves)
    (hM : ∀ k f l, M k f l → LeavesUsable (p := p) f.timestamp l) :
    LeavesUsable (p := p) r.timestamp leaves :=
  h.1.leaves_usable hM

/-- **Leaves.** Every leaf behind a price is usable, and none of its records is older than the
price. -/
theorem Priced.leaves_usable {key : PriceKey} {feed : PriceFeedRaw} {leaves : List Leaf}
    (h : Priced p reg key feed leaves) : LeavesUsable (p := p) feed.timestamp leaves := by
  induction h with
  | node M nested registered priced ih =>
    obtain ⟨-, -, ⟨source, r, -, hr, -, hts⟩ | ⟨source, source', a, b, l, l', -, ha, hb, rfl, hbl⟩⟩ :=
      priced
    · rw [hts]
      exact hr.leaves_usable ih
    · rw [hbl.oldest]
      exact ((ha.leaves_usable ih).anti (min_le_left _ _)).append
        ((hb.leaves_usable ih).anti (min_le_right _ _))

/-! ## From an outcome to a price -/

theorem Outcome.failure_eq_none {out : Outcome} {oracle : AssetOracle} :
    out.failure (some oracle) = none ↔ out.err = none ∧ out.stale = false ∧
      out.deviation = false ∧ 0 < out.priceWad ∧ oracle.minSanityPriceWad ≤ out.priceWad ∧
      out.priceWad ≤ oracle.maxSanityPriceWad := by
  unfold Outcome.failure
  cases out.err with
  | some e => simp
  | none =>
    cases out.stale <;> cases out.deviation <;> simp
    grind

/-- What was read from a source is not in the future when its parts are not. -/
theorem LegPriced.not_future {decimals : Nat} {source : PriceSource} {o : OracleObservation}
    {leaves : List Leaf} (h : LegPriced p (Priced p reg) decimals source o leaves) :
    o.timestamp ≤ p.nowSecs + maxFutureSkewSeconds := by
  have hnode : ∀ {k f l}, Priced p reg k f l → f.timestamp ≤ p.nowSecs + maxFutureSkewSeconds := by
    intro k f l hp
    obtain ⟨oracle, -, -, hu, -⟩ := hp.inv
    exact hu.not_future
  cases source with
  | feed feed =>
    obtain ⟨leaf, hleaf, -, rfl, -⟩ := h
    exact hleaf.not_future _ hleaf.oldest.1
  | scaled scaled =>
    obtain ⟨leaf, quote, rest, hleaf, -, -, -, hquote, -, hts, -⟩ := h
    rw [hts]
    exact le_trans (min_le_right _ _) (hnode hquote)
  | aquariusLp lp =>
    obtain ⟨a, b, la, lb, ha, -, -, hts, -⟩ := h
    rw [hts]
    exact le_trans (min_le_left _ _) (hnode ha)
  | aquariusStableLp lp =>
    obtain ⟨a, b, la, lb, ha, -, -, hts, -⟩ := h
    rw [hts]
    exact le_trans (min_le_left _ _) (hnode ha)
  | curveStableLp lp =>
    obtain ⟨coins, -, -, hts, -⟩ := h
    rw [hts]
    exact le_trans (foldl_min_le _ coins p.nowSecs).1 (Nat.le_add_right _ _)

/-- The midpoint of two positive prices lies between them, unless the sum overflowed. -/
theorem midpointPriceOrZero_between {a b : Int} (ha : 0 < a) (hb : 0 < b)
    (h : 0 < midpointPriceOrZero a b) :
    min b a ≤ midpointPriceOrZero a b ∧ midpointPriceOrZero a b ≤ max b a := by
  unfold midpointPriceOrZero I128.checkedAdd at h ⊢
  split at h
  · rename_i hin
    rw [if_pos hin]
    simp only [Option.map_some, Option.getD_some]
    rw [Int.tdiv_eq_ediv_of_nonneg (by omega)]
    omega
  · simp at h

theorem withinToleranceBand_spec {a b : Int} {tolerance : OracleTolerance}
    (h : withinToleranceBand a b tolerance = true) :
    0 < min a b ∧ Rounding.halfUpDiv (max a b * bps) (min a b) ≤ tolerance.upperRatioBps := by
  unfold withinToleranceBand at h
  split at h
  · cases h
  · rename_i ratio hratio
    obtain ⟨-, -, hpos, rfl, -⟩ := FpCore.tryMulDivHalfUp_some_iff.mp hratio
    exact ⟨hpos, by simpa using h⟩

theorem legsStale_eq_false {a b : Reading} (h : legsStale a b = false) :
    a.stale = false ∧ b.stale = false ∧ (a.nature = .market → b.nature = .market →
      max a.timestamp b.timestamp ≤ min a.timestamp b.timestamp + maxLegAgeSpreadSeconds) := by
  simp only [legsStale, Bool.or_eq_false_iff, Bool.and_eq_false_iff, decide_eq_false_iff_not,
    beq_eq_false_iff_ne] at h
  obtain ⟨⟨ha, hb⟩, hspread⟩ := h
  refine ⟨ha, hb, fun hna hnb => ?_⟩
  rcases hspread with (h | h) | h
  · exact absurd hna h
  · exact absurd hnb h
  · omega

/-- Legs whose blend has no failure price the oracle. -/
theorem blend_priced {oracle : AssetOracle} {legs : Legs}
    (hlegs : LegsPriced p (Priced p reg) oracle legs)
    (h : (blend oracle legs).failure (some oracle) = none) :
    ∃ leaves, NodePriced p (Priced p reg) oracle
      ((blend oracle legs).toFeed oracle.assetDecimals) leaves := by
  obtain ⟨herr, hstale, hdev, hpos, hmin, hmax⟩ := Outcome.failure_eq_none.mp h
  cases legs with
  | empty => cases herr
  | part r slot => cases hdev
  | one r =>
    obtain ⟨source, leaves, hs, hr⟩ := hlegs hstale
    exact ⟨leaves, rfl, ⟨hpos, hr.1.not_future, hr.2.1, hmin, hmax⟩,
      .inl ⟨source, r, hs, hr, rfl, rfl⟩⟩
  | two a b =>
    obtain ⟨hsa, hsb, hspread⟩ := legsStale_eq_false hstale
    obtain ⟨source, source', l, l', hs, ha, hb⟩ := hlegs hsa hsb
    have hwithin : withinToleranceBand b.priceWad a.priceWad oracle.tolerance = true := by
      simpa [blend] using hdev
    obtain ⟨hlow, htol⟩ := withinToleranceBand_spec hwithin
    have ha0 : 0 < a.priceWad := lt_of_lt_of_le hlow (min_le_right _ _)
    have hb0 : 0 < b.priceWad := lt_of_lt_of_le hlow (min_le_left _ _)
    obtain ⟨habove, hbelow⟩ := midpointPriceOrZero_between hb0 ha0 hpos
    have hfuture : min a.timestamp b.timestamp ≤ p.nowSecs + maxFutureSkewSeconds :=
      le_trans (min_le_left _ _) ha.1.not_future
    have hfresh : p.nowSecs ≤ min a.timestamp b.timestamp + oracle.maxPriceStaleSeconds := by
      have := ha.2.1
      have := hb.2.1
      omega
    exact ⟨l ++ l', rfl, ⟨hpos, hfuture, hfresh, hmin, hmax⟩,
      .inr ⟨source, source', a, b, l, l', hs, ha, hb, rfl, ha0, hb0, htol, hspread, habove,
        hbelow, rfl⟩⟩

/-! ## The resolution -/

variable (p reg) in
/-- Everything cached is sound: the payloads came from their providers, the prices are composed. -/
def PricesSound (s : Session) : Prop :=
  FeedsSound p s ∧ ∀ key feed, s.keyPrices key = some feed → ∃ l, Priced p reg key feed l

theorem FeedsSound.setFeed {s : Session} (h : FeedsSound p s) {contract : Address}
    {feedId : FeedId} {data : RedStonePriceData} (hdata : p.Provides contract feedId data) :
    FeedsSound p (s.setFeed contract feedId data) := by
  intro c f d hd
  simp only [Session.setFeed] at hd
  split at hd
  · rename_i heq
    obtain ⟨rfl, rfl⟩ := heq
    cases hd
    exact hdata
  · exact h c f d hd

theorem pricesSound_admits : Admits p (PricesSound p reg) fun _ => True where
  feeds := fun _ h => h.1
  setFeed := fun _ _ _ _ h hdata => ⟨h.1.setFeed hdata, h.2⟩
  traps := fun _ _ => trivial

theorem pushKey_sound (key : PriceKey) :
    Spec (PricesSound p reg) (fun _ => True) (Session.pushKey key) fun _ => True := by
  intro s hI
  rw [Session.pushKey_run]
  split_ifs
  · trivial
  · exact ⟨hI, trivial⟩

theorem storePrice_sound {key : PriceKey} {feed : PriceFeedRaw} {l : List Leaf}
    (h : Priced p reg key feed l) :
    Spec (PricesSound p reg) (fun _ => True) (Session.storePrice key feed) fun _ => True := by
  refine Spec.modify (fun s hI => ⟨hI.1, fun k f hf => ?_⟩) trivial
  by_cases hk : k = key
  · subst hk
    simp only [Function.update_self, Option.some.injEq] at hf
    exact ⟨l, hf ▸ h⟩
  · simp only [Function.update_of_ne hk] at hf
    exact hI.2 k f hf

/-- An outcome without a failure is priced. -/
def OutcomeSound (key : PriceKey) (r : Outcome × Option AssetOracle) : Prop :=
  r.1.failure r.2 = none → ∃ oracle l, r.2 = some oracle ∧
    Priced p reg key (r.1.toFeed oracle.assetDecimals) l

/-- **Nested keys.** Whether cached or resolved, a nested price is composed. -/
theorem resolveNested_sound {resolveAt : PriceKey → Engine (Outcome × Option AssetOracle)}
    {validateAt : PriceKey → Reads Unit} {key : PriceKey}
    (hresolve : Spec (PricesSound p reg) (fun _ => True) (resolveAt key)
      (@OutcomeSound p reg key))
    (hvalidate : SpecE (PricesSound p reg) (fun _ => True) (validateAt key) (fun _ => True)
      fun _ => True) :
    SpecE (PricesSound p reg) (fun _ => True) (resolveNested resolveAt validateAt key)
      (fun feed => ∃ l, Priced p reg key feed l) fun _ => True := by
  refine .bind (Q := PricesSound p reg) (.engine Spec.get) fun session hsession => ?_
  split
  · rename_i cached _ hcached
    exact .bind hvalidate fun _ _ => .pure (hsession.2 _ _ hcached)
  · exact .bind hvalidate fun _ _ => .throw trivial
  · refine .bind (.engine hresolve) fun r hr => ?_
    obtain ⟨out, oracle⟩ := r
    dsimp only
    split
    · split
      · refine .bind (Q := fun _ => True) (.engine ?_) fun _ _ => .throw trivial
        exact Spec.modify (fun _ h => h) trivial
      · exact .throw trivial
    · rename_i hnone
      obtain ⟨oracle', l, rfl, hpriced⟩ := hr hnone
      refine .bind (.data (Q := fun o => o = oracle') ?_ ?_) fun o ho => ?_
      · intro a ha
        exact (Option.some.inj (Fallible.orThrow_ok_iff.mp ha)).symm
      · exact fun _ _ => trivial
      · subst ho
        exact .bind (.engine (storePrice_sound hpriced)) fun _ _ => .pure ⟨l, hpriced⟩

theorem validateCachedPath_sound (room : Nat) :
    ∀ key, SpecE (PricesSound p reg) (fun _ => True) (validateCachedPath reg room key)
      (fun _ => True) fun _ => True := by
  induction room with
  | zero => exact fun _ => .throw trivial
  | succ room ih =>
    intro key
    unfold validateCachedPath
    refine .bind (Q := fun _ => True) (.engine (Spec.get.post fun _ _ => trivial)) fun s _ => ?_
    split
    · exact .bind (Q := fun _ => False) (.throw trivial) fun _ h => h.elim
    refine .bind (.data (Q := fun _ => True) (fun _ _ => trivial) fun _ _ => trivial)
      fun oracle _ => ?_
    refine .bind (.engine (pushKey_sound key)) fun _ _ => ?_
    have hloop : Spec (PricesSound p reg) (fun _ => True)
        (oracle.dependencies.forM (validateCachedPath reg room)).run fun _ => True := by
      have h : SpecE (PricesSound p reg) (fun _ => True)
          (oracle.dependencies.forM (validateCachedPath reg room)) (fun _ => True)
          fun _ => True := by
        induction oracle.dependencies with
        | nil => exact .pure trivial
        | cons d ds ihds => exact .bind (ih d) fun _ _ => ihds
      exact Spec.post h fun _ _ => trivial
    refine .bind (.engine hloop) fun result _ => ?_
    refine .bind (.engine (Spec.modify (fun _ h => h) trivial)) fun _ (_ : True) => ?_
    exact .data (fun _ _ => trivial) fun _ _ => trivial

/-- **Outcomes.** At every depth, what resolves without a failure is priced. -/
theorem resolveOutcome_sound (room : Nat) :
    ∀ key, Spec (PricesSound p reg) (fun _ => True) (resolveOutcome p reg room key none)
      (@OutcomeSound p reg key) := by
  induction room with
  | zero => exact fun key => Spec.pure nofun
  | succ room ih =>
    intro key
    unfold resolveOutcome
    refine Spec.bind Spec.get fun s _ => ?_
    split
    · exact Spec.pure nofun
    refine Spec.bind (pushKey_sound key) fun _ _ => ?_
    rw [Option.none_or]
    cases hreg : reg.getOracle key with
    | none =>
      exact Spec.bind (Spec.modify (Q := fun _ => True) (fun _ h => h) trivial) fun _ _ =>
        Spec.pure nofun
    | some oracle =>
      have hnested : ∀ k ∈ oracle.dependencies, SpecE (PricesSound p reg) (fun _ => True)
          (resolveNested (fun k => resolveOutcome p reg room k none)
            (validateCachedPath reg room) k)
          (fun feed => ∃ l, Priced p reg k feed l) fun _ => True := fun k _ =>
        resolveNested_sound (ih k) (validateCachedPath_sound room k)
      have hlegs := compose_spec pricesSound_admits (fun _ _ => trivial) key oracle
        (.inr (.inr trivial)) hnested
      refine Spec.bind hlegs fun legs hpriced => ?_
      refine Spec.bind (Spec.modify (Q := fun _ => True) (fun _ h => h) trivial) fun _ _ =>
        Spec.pure ?_
      intro hnone
      cases legs with
      | error e => cases hnone
      | ok legs =>
        obtain ⟨leaves, hnode⟩ := blend_priced hpriced hnone
        exact ⟨oracle, leaves, rfl, .node _ (fun _ _ _ h => h) hreg hnode⟩

theorem resolve_sound (key : PriceKey) :
    Spec (PricesSound p reg) (fun _ => True) (resolve p reg key)
      fun feed => ∃ l, Priced p reg key feed l := by
  refine Spec.bind Spec.get fun s hs => ?_
  split
  · rename_i cached hcached
    exact Spec.pure (hs.2 _ _ hcached)
  · refine Spec.bind (resolveOutcome_sound rootRoom key) fun r hr => ?_
    obtain ⟨out, oracle⟩ := r
    refine Spec.bind (Spec.lift (Q := fun feed => ∃ l, Priced p reg key feed l) ?_
      fun _ _ => trivial) fun feed hfeed => ?_
    · intro feed hforce
      unfold Outcome.force at hforce
      split at hforce
      · cases hforce
      rename_i hnone
      obtain ⟨oracle', l, rfl, hpriced⟩ := hr hnone
      cases hforce
      exact ⟨l, hpriced⟩
    · obtain ⟨l, hl⟩ := hfeed
      exact Spec.bind (storePrice_sound hl) fun _ _ => Spec.pure ⟨l, hl⟩

/-- **Prices fail closed.** Whatever the registry and whatever the providers answer, a returned
price is composed of usable nodes down to usable leaves, and no record behind it is older than the
price or than the root's staleness limit. -/
theorem prices_fail_closed (p : Providers) (reg : Registry) {keys : List PriceKey}
    {out : PriceKey → Option PriceFeedRaw} (h : prices p reg keys = .ok out) :
    ∀ key ∈ keys, ∃ feed leaves, out key = some feed ∧ Priced p reg key feed leaves ∧
      ∀ leaf ∈ leaves, leaf.Usable p ∧ ∀ stamp ∈ leaf.stamps, feed.timestamp ≤ stamp ∧
        ∃ oracle, reg.getOracle key = some oracle ∧
          p.nowSecs ≤ stamp + oracle.maxPriceStaleSeconds := by
  intro key hkey
  obtain ⟨s', hrun⟩ := Engine.answer_ok h
  have hwarm : PricesSound p reg (warmedSession p reg keys) :=
    warmedSession_inv ⟨nofun, nofun⟩
      (fun _ _ _ _ hs hdata => pricesSound_admits.setFeed _ _ _ _ hs hdata) keys
  have hall := (collectAnswers_spec fun key _ => resolve_sound key).ok hwarm hrun
  obtain ⟨feed, hout, leaves, hpriced⟩ := hall.2.1 key hkey
  obtain ⟨oracle, hreg, -, hnode, -⟩ := hpriced.inv
  refine ⟨feed, leaves, hout, hpriced, fun leaf hleaf => ?_⟩
  obtain ⟨husable, hstamps⟩ := hpriced.leaves_usable leaf hleaf
  refine ⟨husable, fun stamp hs => ⟨hstamps stamp hs, oracle, hreg, ?_⟩⟩
  exact le_trans hnode.fresh (Nat.add_le_add_right (hstamps stamp hs) _)

namespace Sample

/-- No provider answers. -/
def silent : Providers where
  nowSecs := 1_000_000
  reflectorBase := fun _ => none
  reflectorDecimals := fun _ => none
  reflectorResolution := fun _ => none
  lastprice := fun _ _ => none
  prices := fun _ _ _ => none
  latestRound := fun _ _ _ => none
  readPriceDataForFeed := fun _ _ => none
  readPriceData := fun _ _ => none
  maxSubmissionAgeSeconds := fun _ => none
  tokenDecimals := fun _ => none
  aquariusPoolType := fun _ => none
  aquariusReserves := fun _ => none
  aquariusTotalShares := fun _ => none
  aquariusTokens := fun _ => none
  aquariusShareId := fun _ => none
  aquariusAmp := fun _ => none
  executable := fun _ => none
  curvePoolInfo := fun _ => none
  curveDecimals := fun _ => none
  curveVirtualPrice := fun _ => none
  curveTotalSupply := fun _ => none
  lastprice_u64 := nofun
  prices_u64 := nofun
  latestRound_u64 := nofun
  readPriceDataForFeed_u64 := nofun
  readPriceData_u64 := nofun

/-- The payload of the feeds "two" and "three", a minute old. -/
def payload (feedId : FeedId) : Option RedStonePriceData :=
  if feedId = "two" then some ⟨200_000_000, 999_940_000, 999_950_000⟩
  else if feedId = "three" then some ⟨300_000_000, 999_950_000, 999_940_000⟩
  else none

theorem payload_u64 {feedId : FeedId} {data : RedStonePriceData} (h : payload feedId = some data) :
    data.packageTimestamp ≤ u64Max ∧ data.writeTimestamp ≤ u64Max := by
  unfold payload at h
  split at h
  · cases h
    decide
  · split at h
    · cases h
      decide
    · cases h

theorem mapM_payload {feedIds : List FeedId} {ds : List RedStonePriceData}
    (h : feedIds.mapM payload = some ds) :
    List.Forall₂ (fun feedId d => payload feedId = some d) feedIds ds := by
  induction feedIds generalizing ds with
  | nil =>
    cases h
    exact .nil
  | cons f fs ih =>
    rw [List.mapM_cons] at h
    obtain ⟨d, hd, h⟩ := Option.bind_eq_some_iff.mp h
    obtain ⟨ds', hds', h⟩ := Option.bind_eq_some_iff.mp h
    cases h
    exact .cons hd (ih hds')

/-- A multi-feed contract that answers both feeds, one by one and in bulk. -/
def redStone : Providers :=
  { silent with
    readPriceDataForFeed := fun _ feedId => payload feedId
    readPriceData := fun _ feedIds => feedIds.mapM payload
    readPriceDataForFeed_u64 := fun _ _ _ h => payload_u64 h
    readPriceData_u64 := by
      intro _ feedIds ds h d hd
      obtain ⟨feedId, hf⟩ := exists_of_forall₂ (mapM_payload h) hd
      exact payload_u64 hf }

def feed (feedId : FeedId) : FeedSource where
  provider := .redStone ⟨50, feedId, .fundamental⟩
  decimals := 8
  maxStaleSeconds := 3_600

def oracle (source : PriceSource) (minWad maxWad : Int) : AssetOracle where
  assetDecimals := 7
  maxPriceStaleSeconds := 3_600
  sources := [source]
  tolerance := ⟨10_500, 9_524⟩
  independence := .requireDisjoint
  minSanityPriceWad := minWad
  maxSanityPriceWad := maxWad

/-- Token 2 at the price of its feed. -/
def direct : AssetOracle :=
  oracle (.feed (feed "two")) 1_900_000_000_000_000_000 2_100_000_000_000_000_000

/-- Token 1 at the price of another feed, in units of token 2. -/
def scaled : AssetOracle :=
  oracle (.scaled ⟨feed "three", .token 2, wad, 5 * wad⟩) 5_700_000_000_000_000_000
    6_300_000_000_000_000_000

def registry : Registry := (Registry.empty.storeOracle (.token 2) direct).storeOracle (.token 1) scaled

/-- The feed that `prices` answers for a key. -/
def answer (keys : List PriceKey) (key : PriceKey) : Option PriceFeedRaw :=
  (prices redStone registry keys).toOption.bind fun out => out key

example : answer [.token 1, .token 2] (.token 1) = some ⟨6 * wad, 7, 999_940⟩ := by
  decide +kernel

end Sample

theorem prices_fail_closed_sample : ∃ out feed leaves,
    prices Sample.redStone Sample.registry [.token 1, .token 2] = .ok out ∧
      out (.token 1) = some feed ∧
      Priced Sample.redStone Sample.registry (.token 1) feed leaves := by
  have hok : (prices Sample.redStone Sample.registry [.token 1, .token 2]).isOk = true := by
    decide +kernel
  cases h : prices Sample.redStone Sample.registry [.token 1, .token 2] with
  | error e =>
    rw [h] at hok
    cases hok
  | ok out =>
    obtain ⟨feed, leaves, hout, hpriced, -⟩ := prices_fail_closed _ _ h (.token 1) (by decide)
    exact ⟨out, feed, leaves, rfl, hout, hpriced⟩

end Lending.PriceAggregator
