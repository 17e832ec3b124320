import LendingXlm.PriceAggregator.Engine

/-!
# What a composed price is made of

`Leaf` is one feed observation with the provider records it was computed from. `LegPriced` says
what one source of an oracle was read from: leaves, and the prices of the keys it composes over.
The readers of the engine are specified against it:

* `readFeed_spec`: a feed's observation is a leaf;
* `evaluateSource_spec`: what a source evaluates to is priced by leaves and nested prices, or is
  an error of the source itself or of a nested key;
* `compose_spec`: the same for the legs of an oracle.

The specifications are parametric in what is known about nested prices and errors, so that they
serve every property of the resolution.
-/

namespace Lending.PriceAggregator

open Transaction

/-! ## Configuration errors -/

/-- The errors of a malformed composition. -/
def OracleError.IsConfig (e : OracleError) : Prop :=
  e ∈ [.oracleCycleDetected, .oracleDepthExceeded, .sourceCountOutOfRange, .oracleNotConfigured]

instance : DecidablePred OracleError.IsConfig :=
  fun _ => inferInstanceAs (Decidable (_ ∈ _))

def Panic.IsConfig (e : Panic) : Prop := ∃ err : OracleError, err.IsConfig ∧ e = .oracle err

theorem Panic.isConfig_oracle {e : OracleError} : (Panic.oracle e).IsConfig ↔ e.IsConfig := by
  constructor
  · rintro ⟨err, herr, h⟩
    cases h
    exact herr
  · exact fun h => ⟨e, h, rfl⟩

theorem Panic.not_isConfig_math {e : Error} : ¬ (Panic.math e).IsConfig := by
  rintro ⟨err, -, h⟩
  cases h

/-! ## Leaves -/

/-- One observation of a feed, and the timestamps of the records it was computed from. -/
structure Leaf where
  feed : FeedSource
  observation : OracleObservation
  stamps : List Nat

variable (p : Providers)

/-- The payload came from the provider, alone or in a bulk read. -/
def Providers.Provides (contract : Address) (feedId : FeedId) (data : RedStonePriceData) : Prop :=
  p.readPriceDataForFeed contract feedId = some data ∨
    ∃ feeds payloads, readPriceDataBulk p contract feeds = some payloads ∧
      (feedId, data) ∈ feeds.zip payloads

/-- The provider answered with records that give the leaf's observation. -/
def Leaf.Observed (leaf : Leaf) : Prop :=
  match leaf.feed.provider with
  | .chainlink c => ∃ round, p.latestRound c.contract c.dataId leaf.feed.decimals = some round ∧
      OracleObservation.fromChainlink p.nowSecs round leaf.feed.decimals = some leaf.observation ∧
      leaf.stamps = [round.timestamp]
  | .redStone m | .xoxno m => ∃ data, p.Provides m.contract m.feedId data ∧
      OracleObservation.fromMultiFeed p.nowSecs data leaf.feed.decimals = some leaf.observation ∧
      leaf.stamps = [millisToSeconds data.writeTimestamp, millisToSeconds data.packageTimestamp]
  | .reflector r =>
    match r.readMode with
    | .spot => ∃ asset data, toReflectorAsset r.asset = .ok asset ∧
        p.lastprice r.contract asset = some data ∧
        OracleObservation.fromReflector p.nowSecs data leaf.feed.decimals =
          some leaf.observation ∧ leaf.stamps = [data.timestamp]
    | .twap records => ∃ asset history, toReflectorAsset r.asset = .ok asset ∧
        p.prices r.contract asset records = some history ∧
        twapObservation p r.contract asset leaf.feed.decimals records = .ok leaf.observation ∧
        leaf.stamps = history.map (·.timestamp)

/-- A leaf that may be priced from: positive, no record in the future beyond the skew, the oldest
record no older than the feed's limit. -/
structure Leaf.Usable (leaf : Leaf) : Prop where
  observed : leaf.Observed p
  pos : 0 < leaf.observation.priceWad
  not_future : ∀ ts ∈ leaf.stamps, ts ≤ p.nowSecs + maxFutureSkewSeconds
  oldest : leaf.observation.timestamp ∈ leaf.stamps ∧
    ∀ ts ∈ leaf.stamps, leaf.observation.timestamp ≤ ts
  fresh : p.nowSecs ≤ leaf.observation.timestamp + leaf.feed.maxStaleSeconds

/-! ### An observed leaf that is not stale is usable -/

variable {p}

theorem isStale_eq_false {now ts limit : Nat} : isStale now ts limit = false ↔ now ≤ ts + limit := by
  simp only [isStale, decide_eq_false_iff_not]
  omega

theorem le_of_isFutureAt {now ts : Nat} (hts : ts ≤ u64Max) (h : isFutureAt now ts = false) :
    ts ≤ now + maxFutureSkewSeconds := by
  unfold isFutureAt at h
  split at h
  · simpa using h
  · omega

theorem millisToSeconds_le {ms : Nat} (h : ms ≤ u64Max) : millisToSeconds ms ≤ u64Max :=
  le_trans (Nat.div_le_self ms _) h

theorem tryNormalizePositivePrice_pos {price w : Int} {decimals : Nat}
    (h : tryNormalizePositivePrice price decimals = some w) : 0 < w := by
  unfold tryNormalizePositivePrice at h
  split at h
  · cases h
  · rename_i hbad
    obtain ⟨factor, hf, hm⟩ := Option.bind_eq_some_iff.mp h
    obtain ⟨-, rfl⟩ := I128.checkedMul_some.mp hm
    simp only [I128.checkedPow, Option.ite_none_right_eq_some, Option.some.injEq] at hf
    obtain ⟨-, rfl⟩ := hf
    exact mul_pos (by omega) (by positivity)

theorem Providers.Provides.u64 {contract : Address} {feedId : FeedId} {data : RedStonePriceData}
    (h : p.Provides contract feedId data) :
    data.packageTimestamp ≤ u64Max ∧ data.writeTimestamp ≤ u64Max := by
  rcases h with h | ⟨feeds, payloads, hbulk, hmem⟩
  · exact p.readPriceDataForFeed_u64 _ _ _ h
  · obtain ⟨hread, -⟩ := Option.filter_eq_some_iff.mp hbulk
    exact p.readPriceData_u64 _ _ _ hread data (List.of_mem_zip hmem).2

/-- The loop of `read_twap` passes the records newest first, none of them in the future; it ends at
the last one. -/
theorem checkTwapRecord_loop {now resolution : Nat} {history : List ReflectorPriceData} :
    ∀ {seen done : Option Nat × Nat},
      history.foldlM (checkTwapRecord now resolution) seen = .ok done →
      (∀ d ∈ history, isFutureAt now d.timestamp = false) ∧
        (∀ d ∈ history, done.2 ≤ d.timestamp) ∧
        (∀ newer ∈ seen.1, ∀ d ∈ history, d.timestamp ≤ newer) ∧
        (history ≠ [] → done.2 ∈ history.map (·.timestamp)) := by
  induction history with
  | nil =>
    intro seen done h
    simp
  | cons d history ih =>
    intro seen done h
    obtain ⟨next, hd, hrest⟩ := Fallible.foldlM_cons_ok h
    simp only [checkTwapRecord] at hd
    split at hd
    · simp at hd
    rename_i hfuture
    split at hd
    · simp at hd
    rename_i hspacing
    simp only [Fallible.pure_ok_iff] at hd
    subst hd
    obtain ⟨hf, hold, hnewer, hmem⟩ := ih hrest
    have hle : ∀ x ∈ history, x.timestamp ≤ d.timestamp := hnewer d.timestamp rfl
    have hdone : done.2 ≤ d.timestamp := by
      cases history with
      | nil =>
        cases Fallible.foldlM_nil_ok hrest
        exact le_refl _
      | cons x xs => exact le_trans (hold x (by simp)) (hle x (by simp))
    refine ⟨?_, ?_, ?_, ?_⟩
    · rintro x (_ | ⟨_, hx⟩)
      · simpa using hfuture
      · exact hf x hx
    · rintro x (_ | ⟨_, hx⟩)
      · exact hdone
      · exact hold x hx
    · intro newer hn x hx
      have hdn : d.timestamp ≤ newer := by
        by_contra hlt
        refine hspacing ?_
        rw [Option.mem_def.mp hn]
        simp only [Option.any_some, decide_eq_true_eq]
        omega
      rcases List.mem_cons.mp hx with rfl | hx
      · exact hdn
      · exact le_trans (hle x hx) hdn
    · intro _
      cases history with
      | nil =>
        cases Fallible.foldlM_nil_ok hrest
        simp
      | cons x xs => exact List.mem_cons_of_mem _ (hmem (by simp))

/-- What a leaf's observation says about the records it came from. -/
def SoundObservation (now : Nat) (o : OracleObservation) (stamps : List Nat) : Prop :=
  0 < o.priceWad ∧ (∀ ts ∈ stamps, ts ≤ now + maxFutureSkewSeconds) ∧
    o.timestamp ∈ stamps ∧ ∀ ts ∈ stamps, o.timestamp ≤ ts

theorem fromChainlink_sound {now decimals : Nat} {round : ChainlinkRound} {o : OracleObservation}
    (hts : round.timestamp ≤ u64Max)
    (h : OracleObservation.fromChainlink now round decimals = some o) :
    SoundObservation now o [round.timestamp] := by
  simp only [OracleObservation.fromChainlink] at h
  split at h
  · cases h
  rename_i hfuture
  simp only [Option.bind_eq_bind, Option.bind_eq_some_iff, Option.pure_def, Option.some.injEq] at h
  obtain ⟨answer, -, w, hw, rfl⟩ := h
  have hle := le_of_isFutureAt hts (by simpa using hfuture)
  exact ⟨tryNormalizePositivePrice_pos hw, by simpa using hle, by simp, by simp⟩

theorem fromReflector_sound {now decimals : Nat} {data : ReflectorPriceData}
    {o : OracleObservation} (hts : data.timestamp ≤ u64Max)
    (h : OracleObservation.fromReflector now data decimals = some o) :
    SoundObservation now o [data.timestamp] := by
  simp only [OracleObservation.fromReflector] at h
  split at h
  · cases h
  rename_i hfuture
  simp only [Option.bind_eq_bind, Option.bind_eq_some_iff, Option.pure_def, Option.some.injEq] at h
  obtain ⟨w, hw, rfl⟩ := h
  have hle := le_of_isFutureAt hts (by simpa using hfuture)
  exact ⟨tryNormalizePositivePrice_pos hw, by simpa using hle, by simp, by simp⟩

theorem fromMultiFeed_sound {now decimals : Nat} {data : RedStonePriceData}
    {o : OracleObservation}
    (hts : data.packageTimestamp ≤ u64Max ∧ data.writeTimestamp ≤ u64Max)
    (h : OracleObservation.fromMultiFeed now data decimals = some o) :
    SoundObservation now o
      [millisToSeconds data.writeTimestamp, millisToSeconds data.packageTimestamp] := by
  simp only [OracleObservation.fromMultiFeed] at h
  split at h
  · cases h
  rename_i hfuture
  push Not at hfuture
  simp only [Option.bind_eq_bind, Option.bind_eq_some_iff, Option.pure_def, Option.some.injEq] at h
  obtain ⟨raw, -, w, hw, rfl⟩ := h
  have hp := le_of_isFutureAt (millisToSeconds_le hts.1) (by simpa using hfuture.1)
  have hw' := le_of_isFutureAt (millisToSeconds_le hts.2) (by simpa using hfuture.2)
  refine ⟨tryNormalizePositivePrice_pos hw, ?_, ?_, ?_⟩
  · simp [hp, hw']
  · rcases min_choice (millisToSeconds data.writeTimestamp)
      (millisToSeconds data.packageTimestamp) with h | h <;> simp [h]
  · simp

theorem twapObservation_sound {contract : Address} {asset : ReflectorAsset}
    {decimals records : Nat} {history : List ReflectorPriceData} {o : OracleObservation}
    (hhist : p.prices contract asset records = some history)
    (h : twapObservation p contract asset decimals records = .ok o) :
    SoundObservation p.nowSecs o (history.map (·.timestamp)) := by
  simp only [twapObservation, hhist, orThrow, Fallible.ok_bind] at h
  split at h
  · simp at h
  rename_i hne
  split at h
  · simp at h
  simp only [Fallible.bind_ok_iff] at h
  obtain ⟨resolution, -, done, hloop, h⟩ := h
  split at h
  · simp at h
  simp only [Fallible.bind_ok_iff, Fallible.pure_ok_iff] at h
  obtain ⟨raw, -, w, hw, rfl⟩ := h
  obtain ⟨hfuture, hold, -, hmem⟩ := checkTwapRecord_loop hloop
  have hw : tryNormalizePositivePrice raw decimals = some w := Fallible.orThrow_ok_iff.mp hw
  refine ⟨tryNormalizePositivePrice_pos hw, ?_, hmem (by simpa using hne), ?_⟩
  · intro ts hts
    obtain ⟨d, hd, rfl⟩ := List.mem_map.mp hts
    exact le_of_isFutureAt (p.prices_u64 _ _ _ _ hhist d hd) (hfuture d hd)
  · intro ts hts
    obtain ⟨d, hd, rfl⟩ := List.mem_map.mp hts
    exact hold d hd

theorem Leaf.Observed.sound {leaf : Leaf} (h : leaf.Observed p) :
    SoundObservation p.nowSecs leaf.observation leaf.stamps := by
  unfold Leaf.Observed at h
  split at h
  · obtain ⟨round, hround, hfrom, hst⟩ := h
    rw [hst]
    exact fromChainlink_sound (p.latestRound_u64 _ _ _ _ hround) hfrom
  · obtain ⟨data, hdata, hfrom, hst⟩ := h
    rw [hst]
    exact fromMultiFeed_sound hdata.u64 hfrom
  · obtain ⟨data, hdata, hfrom, hst⟩ := h
    rw [hst]
    exact fromMultiFeed_sound hdata.u64 hfrom
  · split at h
    · obtain ⟨asset, data, -, hdata, hfrom, hst⟩ := h
      rw [hst]
      exact fromReflector_sound (p.lastprice_u64 _ _ _ hdata) hfrom
    · obtain ⟨asset, history, -, hhist, hfrom, hst⟩ := h
      rw [hst]
      exact twapObservation_sound hhist hfrom

/-- A feed's observation, checked at its own limit, is a usable leaf. -/
theorem Leaf.usable {leaf : Leaf} (hobs : leaf.Observed p)
    (hstale : isStale p.nowSecs leaf.observation.timestamp leaf.feed.maxStaleSeconds = false) :
    leaf.Usable p := by
  obtain ⟨hpos, hfuture, hmem, hold⟩ := hobs.sound
  exact ⟨hobs, hpos, hfuture, ⟨hmem, hold⟩, isStale_eq_false.mp hstale⟩

/-! ## Legs -/

variable (p)

/-- The share of an Aquarius pool was priced as `o` from the nested prices of its two tokens. -/
def AquariusPriced (M : PriceKey → PriceFeedRaw → List Leaf → Prop) (decimals : Nat)
    (lp : AquariusLpSource) (stable : Bool) (o : OracleObservation) (leaves : List Leaf) : Prop :=
  ∃ (a b : PriceFeedRaw) (restA restB : List Leaf), M lp.keyA a restA ∧ M lp.keyB b restB ∧
    (aquariusPrice p lp decimals stable a b).run = .ok (.ok o.priceWad) ∧
    o.timestamp = min a.timestamp b.timestamp ∧ leaves = restA ++ restB

/-- The source was read as `o` from these leaves and from nested prices, which `M` speaks about. -/
def LegPriced (M : PriceKey → PriceFeedRaw → List Leaf → Prop) (decimals : Nat)
    (source : PriceSource) (o : OracleObservation) (leaves : List Leaf) : Prop :=
  match source with
  | .feed feed => ∃ leaf : Leaf, leaf.Usable p ∧ leaf.feed = feed ∧ o = leaf.observation ∧
      leaves = [leaf]
  | .scaled scaled => ∃ (leaf : Leaf) (quote : PriceFeedRaw) (rest : List Leaf),
      leaf.Usable p ∧ leaf.feed = scaled.factor ∧
      scaled.minFactorWad ≤ leaf.observation.priceWad ∧
      leaf.observation.priceWad ≤ scaled.maxFactorWad ∧ M scaled.quote quote rest ∧
      o.priceWad = Rounding.halfUpDiv (leaf.observation.priceWad * quote.priceWad) wad ∧
      o.timestamp = min leaf.observation.timestamp quote.timestamp ∧ leaves = leaf :: rest
  | .aquariusLp lp => AquariusPriced p M decimals lp false o leaves
  | .aquariusStableLp lp => AquariusPriced p M decimals lp true o leaves
  | .curveStableLp lp => ∃ coins : List (PriceFeedRaw × List Leaf),
      List.Forall₂ (fun coin c => M (.token coin) c.1 c.2) lp.coins coins ∧
      (curvePrice p lp (coins.foldl (fun w c => min w c.1.priceWad) i128Max)).run =
        .ok (.ok o.priceWad) ∧
      o.timestamp = coins.foldl (fun ts c => min ts c.1.timestamp) p.nowSecs ∧
      leaves = coins.flatMap Prod.snd

theorem AquariusPriced.mono {M M' : PriceKey → PriceFeedRaw → List Leaf → Prop} {decimals : Nat}
    {lp : AquariusLpSource} {stable : Bool} {o : OracleObservation} {leaves : List Leaf}
    (h : AquariusPriced p M decimals lp stable o leaves)
    (hM : ∀ k feed l, M k feed l → M' k feed l) :
    AquariusPriced p M' decimals lp stable o leaves := by
  obtain ⟨a, b, ra, rb, ha, hb, h⟩ := h
  exact ⟨a, b, ra, rb, hM _ _ _ ha, hM _ _ _ hb, h⟩

theorem LegPriced.mono {M M' : PriceKey → PriceFeedRaw → List Leaf → Prop} {decimals : Nat}
    {source : PriceSource} {o : OracleObservation} {leaves : List Leaf}
    (h : LegPriced p M decimals source o leaves) (hM : ∀ k feed l, M k feed l → M' k feed l) :
    LegPriced p M' decimals source o leaves := by
  unfold LegPriced at h ⊢
  split at h
  · exact h
  · obtain ⟨leaf, quote, rest, hleaf, hfeed, hmin, hmax, hquote, h⟩ := h
    exact ⟨leaf, quote, rest, hleaf, hfeed, hmin, hmax, hM _ _ _ hquote, h⟩
  · exact h.mono p hM
  · exact h.mono p hM
  · obtain ⟨coins, hcoins, h⟩ := h
    exact ⟨coins, hcoins.imp fun _ _ hc => hM _ _ _ hc, h⟩

/-! ## The readers -/

/-- Every cached payload came from its provider. -/
def FeedsSound (s : Session) : Prop :=
  ∀ contract feedId data, s.feedCache contract feedId = some data →
    p.Provides contract feedId data

/-- What the readers ask of an invariant and of the admitted panics. -/
structure Admits (I : Session → Prop) (T : Panic → Prop) : Prop where
  feeds : ∀ s, I s → FeedsSound p s
  setFeed : ∀ s contract feedId data, I s → p.Provides contract feedId data →
    I (s.setFeed contract feedId data)
  traps : ∀ e, ¬ e.IsConfig → T e

variable {p} {I : Session → Prop} {T : Panic → Prop}

theorem Admits.oracle (hA : Admits p I T) {e : OracleError} (h : ¬ e.IsConfig) :
    T (.oracle e) :=
  hA.traps _ (mt Panic.isConfig_oracle.mp h)

theorem readPriceData_spec (hA : Admits p I T) (contract : Address) (feedId : FeedId) :
    Spec I T (readPriceData p contract feedId)
      fun r => ∀ data ∈ r, p.Provides contract feedId data := by
  unfold readPriceData
  refine Spec.get_bind fun s hI => ?_
  cases hc : s.feedCache contract feedId with
  | some data =>
    refine ⟨hI, ?_⟩
    rintro _ ⟨⟩
    exact hA.feeds s hI _ _ _ hc
  | none =>
    cases hr : p.readPriceDataForFeed contract feedId with
    | none => exact ⟨hI, nofun⟩
    | some data =>
      refine ⟨hA.setFeed s _ _ _ hI (.inl hr), ?_⟩
      rintro _ ⟨⟩
      exact .inl hr

theorem readMultiFeedSource_spec (hA : Admits p I T) (m : MultiFeedRef) (decimals : Nat) :
    Spec I T (readMultiFeedSource p m decimals) fun r => ∀ o ∈ r,
      ∃ data, p.Provides m.contract m.feedId data ∧
        OracleObservation.fromMultiFeed p.nowSecs data decimals = some o := by
  refine Spec.bind (readPriceData_spec hA _ _) fun r hr => Spec.pure ?_
  intro o ho
  obtain ⟨data, hdata, hfrom⟩ := Option.bind_eq_some_iff.mp ho
  exact ⟨data, hr data hdata, hfrom⟩

theorem validateTwapRecords_error {records : Nat} {e : Panic}
    (h : validateTwapRecords records = .error e) : ¬ e.IsConfig := by
  simp only [validateTwapRecords, assertOracle, Fallible.bind_error_iff,
    Fallible.require_error_iff] at h
  rcases h with ⟨-, rfl⟩ | ⟨-, -, -, rfl⟩ <;> rw [Panic.isConfig_oracle] <;> decide

theorem toReflectorAsset_error {asset : OracleAssetRef} {e : Panic}
    (h : toReflectorAsset asset = .error e) : ¬ e.IsConfig := by
  cases asset <;> cases h
  rw [Panic.isConfig_oracle]
  decide

theorem readReflectorSource_spec (hA : Admits p I T) (feed : FeedSource) {r : ReflectorFeedRef}
    (hr : feed.provider = .reflector r) :
    Spec I T (readReflectorSource p r feed.decimals : Engine _) fun res => ∀ o ∈ res,
      ∃ leaf : Leaf, leaf.feed = feed ∧ leaf.observation = o ∧ leaf.Observed p := by
  refine Spec.lift ?_ ?_
  · rintro res h o ho
    unfold readReflectorSource at h
    split at h
    · rename_i hmode
      simp only [readSpot, Fallible.bind_ok_iff, Fallible.pure_ok_iff] at h
      obtain ⟨asset, hasset, rfl⟩ := h
      obtain ⟨data, hdata, hfrom⟩ := Option.bind_eq_some_iff.mp ho
      exact ⟨⟨feed, o, [data.timestamp]⟩, rfl, rfl, by
        simp only [Leaf.Observed, hr, hmode]
        exact ⟨asset, data, hasset, hdata, hfrom, rfl⟩⟩
    · rename_i records hmode
      simp only [readTwap, Fallible.bind_ok_iff, Fallible.pure_ok_iff] at h
      obtain ⟨_, ⟨-, -, asset, hasset, rfl⟩, rfl⟩ := h
      have hok : twapObservation p r.contract asset feed.decimals records = .ok o := by
        cases hx : twapObservation p r.contract asset feed.decimals records with
        | error e => simp [hx, Except.toOption] at ho
        | ok o' =>
          simp only [hx, Except.toOption, Option.mem_def, Option.some.injEq] at ho
          rw [ho]
      cases hhist : p.prices r.contract asset records with
      | none => simp [twapObservation, hhist, orThrow] at hok
      | some history =>
        exact ⟨⟨feed, o, history.map (·.timestamp)⟩, rfl, rfl, by
          simp only [Leaf.Observed, hr, hmode]
          exact ⟨asset, history, hasset, hhist, hok, rfl⟩⟩
  · intro e h
    refine hA.traps e ?_
    unfold readReflectorSource at h
    split at h
    · simp only [readSpot, Fallible.bind_error_iff] at h
      rcases h with h | ⟨_, -, h⟩
      · exact toReflectorAsset_error h
      · cases h
    · simp only [readTwap, Fallible.bind_error_iff] at h
      rcases h with (h | ⟨-, -, h | ⟨_, -, h⟩⟩) | ⟨_, -, h⟩
      · exact validateTwapRecords_error h
      · exact toReflectorAsset_error h
      · cases h
      · cases h

/-- A feed's observation is a leaf, usable unless it is flagged stale. -/
theorem readFeed_spec (hA : Admits p I T) (feed : FeedSource) :
    Spec I T (readFeed p feed) fun r => ∀ o, r = some (o, false) →
      ∃ leaf : Leaf, leaf.Usable p ∧ leaf.feed = feed ∧ o = leaf.observation := by
  have hprov : Spec I T (readProvider p feed.provider feed.decimals) fun res => ∀ o ∈ res,
      ∃ leaf : Leaf, leaf.feed = feed ∧ leaf.observation = o ∧ leaf.Observed p := by
    unfold readProvider
    split
    · rename_i c hc
      refine Spec.pure ?_
      intro o ho
      obtain ⟨round, hround, hfrom⟩ := Option.bind_eq_some_iff.mp ho
      exact ⟨⟨feed, o, [round.timestamp]⟩, rfl, rfl, by
        simp only [Leaf.Observed, hc]
        exact ⟨round, hround, hfrom, rfl⟩⟩
    · rename_i r hr
      exact readReflectorSource_spec hA feed hr
    all_goals
      rename_i m hm
      refine (readMultiFeedSource_spec hA m feed.decimals).post fun res hres o ho => ?_
      obtain ⟨data, hdata, hfrom⟩ := hres o ho
      exact ⟨⟨feed, o, _⟩, rfl, rfl, by
        simp only [Leaf.Observed, hm]
        exact ⟨data, hdata, hfrom, rfl⟩⟩
  refine Spec.bind hprov fun res hres => Spec.pure ?_
  intro o ho
  obtain ⟨o', ho', heq⟩ := Option.map_eq_some_iff.mp ho
  simp only [Prod.mk.injEq] at heq
  obtain ⟨rfl, hstale⟩ := heq
  obtain ⟨leaf, hfeed, rfl, hobs⟩ := hres o' ho'
  refine ⟨leaf, Leaf.usable hobs ?_, hfeed, rfl⟩
  rw [hfeed]
  exact hstale

section Nested

variable {M : PriceKey → PriceFeedRaw → List Leaf → Prop} {E : OracleError → Prop}
  {nested : PriceKey → Reads PriceFeedRaw}

theorem okOr_data {α : Type} {o : Option α} {e : OracleError} {Q : α → Prop}
    (hE : ∀ e, ¬ e.IsConfig → E e) (he : ¬ e.IsConfig) (hQ : ∀ a, o = some a → Q a) :
    SpecE I T (liftM (okOr o e) : Reads α) Q E := by
  refine .data (fun a h => hQ a (Fallible.orThrow_ok_iff.mp h)) fun e' h => ?_
  obtain ⟨-, rfl⟩ := Fallible.orThrow_error_iff.mp h
  exact hE _ he

theorem readScaled_spec (hA : Admits p I T) (hE : ∀ e, ¬ e.IsConfig → E e)
    (scaled : ScaledSource) {decimals : Nat}
    (hq : SpecE I T (nested scaled.quote) (fun feed => ∃ l, M scaled.quote feed l) E) :
    SpecE I T (readScaled p nested scaled)
      (fun r => ∀ o, r = some (o, false) →
        ∃ leaves, LegPriced p M decimals (.scaled scaled) o leaves)
      E := by
  refine .bind (.engine (readFeed_spec hA scaled.factor)) fun r hr => ?_
  cases r with
  | none => exact .pure nofun
  | some f =>
    obtain ⟨factor, factorStale⟩ := f
    dsimp only
    split
    · exact .bind (Q := fun _ => False) (.throw (hE _ (by decide))) fun _ h => h.elim
    rename_i hbounds
    push Not at hbounds
    refine .bind hq fun quote hquote => ?_
    refine .bind (okOr_data hE (by decide) fun _ h => h) fun priceWad hprice => .pure ?_
    rintro o h
    cases h
    obtain ⟨leaf, hleaf, hfeed, rfl⟩ := hr factor rfl
    obtain ⟨rest, hrest⟩ := hquote
    obtain ⟨-, -, -, rfl, -⟩ := FpCore.tryMulDivHalfUp_some_iff.mp hprice
    exact ⟨leaf :: rest, leaf, quote, rest, hleaf, hfeed, hbounds.1, hbounds.2, hrest, rfl, rfl,
      rfl⟩

/-- A computation of the price library carries no configuration error. -/
theorem liftPrice_spec {α : Type} {x : ExceptT OracleError (Except Panic) α}
    (hA : Admits p I T) (hE : ∀ e, ¬ e.IsConfig → E e)
    (h : ErrorsIn (fun e => ¬ e.IsConfig) (fun e => ¬ e.IsConfig) x) :
    SpecE I T (liftM x : Reads α) (fun a => x.run = .ok (.ok a)) E := by
  intro s hI
  rcases hx : x.run with e | (e | a)
  · have heq : (liftM x : Reads α).run s = .error e s := by
      change (liftM x.run : Engine _) s = _
      rw [hx]
      rfl
    rw [heq]
    exact hA.traps e (h.1 e hx)
  · have heq : (liftM x : Reads α).run s = .ok (.error e) s := by
      change (liftM x.run : Engine _) s = _
      rw [hx]
      rfl
    rw [heq]
    exact ⟨hI, hE e (h.2 e hx)⟩
  · have heq : (liftM x : Reads α).run s = .ok (.ok a) s := by
      change (liftM x.run : Engine _) s = _
      rw [hx]
      rfl
    rw [heq]
    exact ⟨hI, rfl⟩

theorem aquariusBinding_error {key : PriceKey} {lp : AquariusLpSource} {decimals : Nat}
    {stable : Bool} {e : OracleError} (h : aquariusBinding p key lp decimals stable = .error e) :
    e = .noLastPrice := by
  simp only [aquariusBinding, Fallible.bind_error_iff, Fallible.orThrow_error_iff,
    Fallible.require_error_iff] at h
  rcases h with ⟨-, rfl⟩ | ⟨_, _, ⟨_, rfl⟩ | ⟨_, _, h⟩⟩
  · rfl
  · rfl
  · split at h
    · cases h
      rfl
    · exact (Fallible.require_error_iff.mp h).2.symm

theorem Panic.hostTrap_not_config : ¬ Panic.hostTrap.IsConfig := by
  rintro ⟨_, -, h⟩
  cases h

/-- The errors of the price library, as errors that are not about the configuration. -/
theorem PriceErrors.mild {α : Type} {x : ExceptT OracleError (Except Panic) α}
    (h : PriceErrors x) : ErrorsIn (fun e => ¬ e.IsConfig) (fun e => ¬ e.IsConfig) x := by
  refine h.mono ?_ ?_
  · rintro _ rfl
    exact Panic.hostTrap_not_config
  · rintro _ rfl
    decide

theorem okOr_mild {α : Type} {o : Option α} {e : OracleError} (he : ¬ e.IsConfig) :
    ErrorsIn (fun e => ¬ e.IsConfig) (fun e => ¬ e.IsConfig) (liftM (okOr o e)) := by
  refine .data fun e' h => ?_
  obtain ⟨-, rfl⟩ := Fallible.orThrow_error_iff.mp h
  exact he

theorem result_mild {α : Type} {x : Result α} :
    ErrorsIn (fun e => ¬ e.IsConfig) (fun e => ¬ e.IsConfig) (liftM x) := by
  refine .host (x := x.mapError Panic.math) fun e h => ?_
  cases x with
  | ok a => cases h
  | error e' =>
    cases h
    exact Panic.not_isConfig_math

theorem aquariusPrice_mild (lp : AquariusLpSource) (decimals : Nat) (stable : Bool)
    (a b : PriceFeedRaw) :
    ErrorsIn (fun e => ¬ e.IsConfig) (fun e => ¬ e.IsConfig)
      (aquariusPrice p lp decimals stable a b) := by
  have htail : ∀ (totalShares priceWad : Int),
      ErrorsIn (fun e => ¬ e.IsConfig) (fun e => ¬ e.IsConfig) (do
        let shareUnit ← okOr (I128.checkedPow 10 decimals) .invalidPrice
        let poolValueWad ← okOr (FpCore.tryMulDivHalfUp priceWad totalShares shareUnit)
          .invalidPrice
        if poolValueWad < lp.minPoolValueWad then
          throw OracleError.insufficientAquariusLiquidity
        return priceWad) := by
    intro totalShares priceWad
    refine .bind (okOr_mild (by decide)) fun unit => .bind (okOr_mild (by decide)) fun v => ?_
    split
    · exact .bind (.throw (by decide)) fun _ => .pure
    · exact .pure
  unfold aquariusPrice
  refine .bind (okOr_mild (by decide)) ?_
  rintro ⟨ra, rb⟩
  refine .bind (okOr_mild (by decide)) fun totalShares => ?_
  dsimp only
  split
  · exact .bind (okOr_mild (by decide)) fun amp =>
      .bind (fairStableLpPriceWad_errors _ _ _ _).mild fun w => htail totalShares w
  · exact .bind (fairLpPriceWad_errors _ _ _).mild fun w => htail totalShares w

theorem curvePrice_mild (lp : CurveStableLpSource) (minimum : Int) :
    ErrorsIn (fun e => ¬ e.IsConfig) (fun e => ¬ e.IsConfig) (curvePrice p lp minimum) := by
  unfold curvePrice
  refine .bind (okOr_mild (by decide)) fun vp => .bind (okOr_mild (by decide)) fun supply =>
    .bind result_mild fun w => .bind result_mild fun v => ?_
  split
  · exact .bind (.throw (by decide)) fun _ => .pure
  · exact .pure

/-! ### Sources -/

theorem aquariusRead_spec (hA : Admits p I T) (hE : ∀ e, ¬ e.IsConfig → E e) (key : PriceKey)
    (lp : AquariusLpSource) (decimals : Nat) (stable : Bool)
    (ha : SpecE I T (nested lp.keyA) (fun feed => ∃ l, M lp.keyA feed l) E)
    (hb : SpecE I T (nested lp.keyB) (fun feed => ∃ l, M lp.keyB feed l) E) :
    SpecE I T (aquariusRead p nested key lp decimals stable)
      (fun r => ∀ o, r = some (o, false) → ∃ leaves, AquariusPriced p M decimals lp stable o leaves)
      E := by
  refine .bind (Q := fun _ => True) (.data (fun _ _ => trivial) fun e h => ?_) fun _ _ => ?_
  · rw [aquariusBinding_error h]
    exact hE _ (by decide)
  refine .bind ha fun a hMa => .bind hb fun b hMb => ?_
  refine .bind (liftPrice_spec hA hE (aquariusPrice_mild lp decimals stable a b)) fun w hw =>
    .pure ?_
  rintro o h
  cases h
  obtain ⟨la, hla⟩ := hMa
  obtain ⟨lb, hlb⟩ := hMb
  exact ⟨la ++ lb, a, b, la, lb, hla, hlb, hw, rfl, rfl⟩

theorem curveRead_spec (hA : Admits p I T) (hE : ∀ e, ¬ e.IsConfig → E e) (key : PriceKey)
    (lp : CurveStableLpSource) (decimals : Nat)
    (hcoins : ∀ coin ∈ lp.coins,
      SpecE I T (nested (.token coin)) (fun feed => ∃ l, M (.token coin) feed l) E) :
    SpecE I T (curveRead p nested key lp decimals)
      (fun r => ∀ o, r = some (o, false) →
        ∃ leaves, LegPriced p M decimals (.curveStableLp lp) o leaves)
      E := by
  -- the coins seen so far are priced, their least price and oldest timestamp are carried along
  let R : Int × Nat → List Address → Prop := fun seen done =>
    ∃ cs : List (PriceFeedRaw × List Leaf),
      List.Forall₂ (fun coin c => M (.token coin) c.1 c.2) done cs ∧
        seen.1 = cs.foldl (fun w c => min w c.1.priceWad) i128Max ∧
        seen.2 = cs.foldl (fun ts c => min ts c.1.timestamp) p.nowSecs
  have hloop : SpecE I T (lp.coins.foldlM (curveCoin nested) (i128Max, p.nowSecs))
      (fun seen => R seen lp.coins) E := by
    refine .foldlM ?_ _ ⟨[], .nil, rfl, rfl⟩
    intro seen coin done hmem hR
    refine .bind (hcoins coin hmem) fun feed hfeed => .pure ?_
    obtain ⟨cs, hcs, hmin, hts⟩ := hR
    obtain ⟨l, hl⟩ := hfeed
    refine ⟨cs ++ [(feed, l)], ?_, ?_, ?_⟩
    · exact List.rel_append hcs (.cons hl .nil)
    · rw [List.foldl_append, ← hmin]
      rfl
    · rw [List.foldl_append, ← hts]
      rfl
  unfold curveRead
  split
  · exact .bind (Q := fun _ => False) (.throw (hE _ (by decide))) fun _ h => h.elim
  refine .bind hloop fun seen hseen => ?_
  obtain ⟨cs, hcs, hmin, hts⟩ := hseen
  refine .bind (liftPrice_spec hA hE (curvePrice_mild lp seen.1)) fun w hw => .pure ?_
  rintro o h
  cases h
  exact ⟨cs.flatMap Prod.snd, cs, hcs, hmin ▸ hw, hts, rfl⟩

theorem evaluateSource_spec (hA : Admits p I T) (hE : ∀ e, ¬ e.IsConfig → E e) (key : PriceKey)
    (source : PriceSource) (decimals : Nat)
    (hnested : ∀ k ∈ source.dependencies,
      SpecE I T (nested k) (fun feed => ∃ l, M k feed l) E) :
    SpecE I T (evaluateSource p nested key source decimals)
      (fun r => ∀ o, r = some (o, false) → ∃ leaves, LegPriced p M decimals source o leaves) E := by
  cases source with
  | feed feed =>
    refine .engine ((readFeed_spec hA feed).post fun r hr o ho => ?_)
    obtain ⟨leaf, hleaf, hfeed, rfl⟩ := hr o ho
    exact ⟨[leaf], leaf, hleaf, hfeed, rfl, rfl⟩
  | scaled scaled => exact readScaled_spec hA hE scaled (hnested _ (by simp [PriceSource.dependencies]))
  | aquariusLp lp =>
    exact aquariusRead_spec hA hE key lp decimals false
      (hnested _ (by simp [PriceSource.dependencies]))
      (hnested _ (by simp [PriceSource.dependencies]))
  | aquariusStableLp lp =>
    exact aquariusRead_spec hA hE key lp decimals true
      (hnested _ (by simp [PriceSource.dependencies]))
      (hnested _ (by simp [PriceSource.dependencies]))
  | curveStableLp lp =>
    refine curveRead_spec hA hE key lp decimals fun coin hcoin => hnested _ ?_
    exact List.mem_map_of_mem hcoin

variable (p M) in
/-- A reading of the oracle's source that is not flagged stale. -/
def ReadingPriced (oracle : AssetOracle) (source : PriceSource) (r : Reading)
    (leaves : List Leaf) : Prop :=
  LegPriced p M oracle.assetDecimals source ⟨r.priceWad, r.timestamp⟩ leaves ∧
    p.nowSecs ≤ r.timestamp + oracle.maxPriceStaleSeconds ∧ r.nature = sourceNature source

theorem readSource_spec (hA : Admits p I T) (hE : ∀ e, ¬ e.IsConfig → E e) (key : PriceKey)
    (oracle : AssetOracle) (source : PriceSource)
    (hnested : ∀ k ∈ source.dependencies,
      SpecE I T (nested k) (fun feed => ∃ l, M k feed l) E) :
    SpecE I T (readSource p nested key oracle source)
      (fun res => ∀ r ∈ res, r.stale = false → ∃ leaves, ReadingPriced p M oracle source r leaves)
      E := by
  refine .bind (evaluateSource_spec hA hE key source oracle.assetDecimals hnested) fun res hres => ?_
  cases res with
  | none => exact .pure nofun
  | some o =>
    obtain ⟨o, componentStale⟩ := o
    refine .pure ?_
    rintro _ ⟨⟩ hstale
    simp only [Bool.or_eq_false_iff] at hstale
    obtain ⟨rfl, hstale⟩ := hstale
    obtain ⟨leaves, hleg⟩ := hres o rfl
    exact ⟨leaves, hleg, isStale_eq_false.mp hstale, rfl⟩

variable (p M) in
/-- What is known about composed legs that are not flagged stale. -/
def LegsPriced (oracle : AssetOracle) : Legs → Prop
  | .one r => r.stale = false → ∃ source leaves, oracle.sources = [source] ∧
      ReadingPriced p M oracle source r leaves
  | .two primary anchor => primary.stale = false → anchor.stale = false →
      ∃ source source' leaves leaves', oracle.sources = [source, source'] ∧
        ReadingPriced p M oracle source primary leaves ∧
        ReadingPriced p M oracle source' anchor leaves'
  | .part _ _ | .empty => True

/-- The legs of an oracle with one or two sources. -/
theorem compose_spec (hA : Admits p I T) (hE : ∀ e, ¬ e.IsConfig → E e) (key : PriceKey)
    (oracle : AssetOracle)
    (hcount : oracle.sources.length = 1 ∨ oracle.sources.length = 2 ∨ E .sourceCountOutOfRange)
    (hnested : ∀ k ∈ oracle.dependencies,
      SpecE I T (nested k) (fun feed => ∃ l, M k feed l) E) :
    SpecE I T (compose p nested key oracle) (LegsPriced p M oracle) E := by
  have hsub : ∀ source ∈ oracle.sources, ∀ k ∈ source.dependencies,
      SpecE I T (nested k) (fun feed => ∃ l, M k feed l) E :=
    fun source hs k hk => hnested k (List.mem_flatMap.mpr ⟨source, hs, hk⟩)
  unfold compose
  split
  · rename_i source hsources
    refine .bind (readSource_spec hA hE key oracle source (hsub source (by simp [hsources])))
      fun first hfirst => .pure ?_
    cases first with
    | none => trivial
    | some r =>
      intro hstale
      obtain ⟨leaves, hr⟩ := hfirst r rfl hstale
      exact ⟨source, leaves, hsources, hr⟩
  · rename_i source source' hsources
    refine .bind (readSource_spec hA hE key oracle source (hsub source (by simp [hsources])))
      fun first hfirst => ?_
    refine .bind (readSource_spec hA hE key oracle source' (hsub source' (by simp [hsources])))
      fun second hsecond => .pure ?_
    cases first <;> cases second <;> try trivial
    rename_i primary anchor
    intro h h'
    obtain ⟨leaves, hr⟩ := hfirst primary rfl h
    obtain ⟨leaves', hr'⟩ := hsecond anchor rfl h'
    exact ⟨source, source', leaves, leaves', hsources, hr, hr'⟩
  · rename_i h1 h2
    refine .throw ?_
    rcases hcount with h | h | h
    · obtain ⟨s, hs⟩ := List.length_eq_one_iff.mp h
      exact absurd hs (h1 s)
    · obtain ⟨s, s', hs⟩ := List.length_eq_two.mp h
      exact absurd hs (h2 s s')
    · exact h

end Nested

/-! ## Queries -/

/-- A query over a list of keys answers each of them, and no other. -/
theorem collectAnswers_spec {α : Type} {query : PriceKey → Engine α} {Q : PriceKey → α → Prop}
    {keys : List PriceKey} (h : ∀ key ∈ keys, Spec I T (query key) (Q key)) :
    Spec I T (collectAnswers query keys) fun out =>
      (∀ key ∈ keys, ∃ a, out key = some a ∧ Q key a) ∧ ∀ key ∉ keys, out key = none := by
  refine Spec.foldlM (P := fun (out : PriceKey → Option α) done =>
    (∀ key ∈ done, ∃ a, out key = some a ∧ Q key a) ∧ ∀ key ∉ done, out key = none)
    ?_ _ ⟨nofun, fun _ _ => rfl⟩
  intro out key done hmem hout
  refine Spec.bind (h key hmem) fun a ha => Spec.pure ⟨fun k hk => ?_, fun k hk => ?_⟩
  · by_cases heq : k = key
    · subst heq
      exact ⟨a, Function.update_self .., ha⟩
    · rw [Function.update_of_ne heq]
      simp only [List.mem_append, List.mem_singleton, heq, or_false] at hk
      exact hout.1 k hk
  · simp only [List.mem_append, List.mem_singleton, not_or] at hk
    rw [Function.update_of_ne hk.2]
    exact hout.2 k hk.1

theorem Engine.answer_ok {α : Type} {x : Engine α} {s : Session} {a : α}
    (h : x.answer s = .ok a) : ∃ s', x s = .ok a s' := by
  unfold Engine.answer at h
  split at h
  · rename_i b s' hx
    cases h
    exact ⟨s', hx⟩
  · cases h

/-- A property of sessions that every provided payload keeps holds of the warmed session. -/
theorem warmedSession_inv {reg : Registry} {J : Session → Prop} (hnew : J .new)
    (hset : ∀ s contract feedId data, J s → p.Provides contract feedId data →
      J (s.setFeed contract feedId data)) (keys : List PriceKey) :
    J (warmedSession p reg keys) := by
  have hadapter : ∀ s entry, J s → J (warmAdapter p s entry) := by
    intro s entry hs
    unfold warmAdapter
    split
    · exact hs
    split
    · exact hs
    rename_i payloads hbulk
    refine List.foldlRecOn _ _ hs fun s hs pair hmem => ?_
    exact hset s _ _ _ hs (.inr ⟨entry.2, payloads, hbulk, hmem⟩)
  exact List.foldlRecOn _ _ hnew fun s hs entry _ => hadapter s entry hs

end Lending.PriceAggregator
