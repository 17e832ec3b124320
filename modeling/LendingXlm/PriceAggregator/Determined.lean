import LendingXlm.PriceAggregator.Resolution

/-!
# What a reader returns is determined by its inputs

A reader of a valid source never traps, and what it returns depends only on what the providers
answer and on the results of the keys the source composes over, not on what the session has
cached, as long as the cache holds what the providers would answer.

* `readFeed_determined`: a feed of valid shape;
* `fairStableLpPriceWad` and the other computations on untrusted amounts end without a trap
  (`aquariusPrice_noTrap`, `curvePrice_noTrap`);
* `compose_determined`: the legs of an oracle whose sources are of valid shape.
-/

namespace Lending.PriceAggregator

open Transaction Validation

variable {p : Providers}

/-- The cached payloads are what single reads answer, and stay so. -/
structure Agrees (p : Providers) (I : Session → Prop) : Prop where
  feeds : ∀ s, I s → ∀ contract feedId data, s.feedCache contract feedId = some data →
    p.readPriceDataForFeed contract feedId = some data
  setFeed : ∀ s contract feedId data, I s → p.readPriceDataForFeed contract feedId = some data →
    I (s.setFeed contract feedId data)

variable {I : Session → Prop}

/-! ## Feeds -/

theorem readPriceData_computes (hA : Agrees p I) (contract : Address) (feedId : FeedId) :
    Computes I (readPriceData p contract feedId) (p.readPriceDataForFeed contract feedId) := by
  unfold readPriceData
  refine Spec.get_bind fun s hI => ?_
  cases hc : s.feedCache contract feedId with
  | some data => exact ⟨hI, (hA.feeds s hI _ _ _ hc).symm⟩
  | none =>
    cases hr : p.readPriceDataForFeed contract feedId with
    | none => exact ⟨hI, rfl⟩
    | some data => exact ⟨hA.setFeed s _ _ _ hI hr, rfl⟩

theorem readMultiFeedSource_computes (hA : Agrees p I) (feed : MultiFeedRef) (decimals : Nat) :
    Computes I (readMultiFeedSource p feed decimals)
      ((p.readPriceDataForFeed feed.contract feed.feedId).bind fun priceData =>
        OracleObservation.fromMultiFeed p.nowSecs priceData decimals) :=
  Computes.bind (readPriceData_computes hA _ _) .pure

/-- A Reflector feed of valid shape does not trap. -/
theorem readReflectorSource_ok {feed : FeedSource} {r : ReflectorFeedRef}
    (hr : feed.provider = .reflector r) (hshape : feedShape feed = .ok ()) :
    ∃ o, readReflectorSource p r feed.decimals = .ok o := by
  unfold feedShape at hshape
  rw [hr] at hshape
  simp only [Fallible.bind_ok_iff] at hshape
  obtain ⟨-, -, -, -, hshape⟩ := hshape
  obtain ⟨asset, hasset⟩ : ∃ asset, toReflectorAsset r.asset = .ok asset := by
    cases h : r.asset with
    | string s =>
      rw [h] at hshape
      cases hshape
    | stellar a => exact ⟨_, rfl⟩
    | symbol s => exact ⟨_, rfl⟩
  unfold readReflectorSource
  cases hmode : r.readMode with
  | spot =>
    simp only [readSpot, hasset, Fallible.ok_bind]
    exact ⟨_, rfl⟩
  | twap records =>
    have hrecords : validateTwapRecords records = .ok () := by
      rw [hmode] at hshape
      cases h : r.asset <;> rw [h] at hshape
      · obtain ⟨_, hrecords, _⟩ := Fallible.bind_ok hshape
        exact hrecords
      · obtain ⟨_, hrecords, _⟩ := Fallible.bind_ok hshape
        exact hrecords
      · cases hshape
    simp only [readTwap, hrecords, hasset, Fallible.ok_bind]
    exact ⟨_, rfl⟩

/-- **Feeds.** A feed of valid shape reads the same in every session that agrees with the
providers. -/
theorem readFeed_determined {feed : FeedSource} (hshape : feedShape feed = .ok ()) :
    ∃ v, ∀ I, Agrees p I → Computes I (readFeed p feed) v := by
  have hprov : ∃ v, ∀ I, Agrees p I → Computes I (readProvider p feed.provider feed.decimals) v := by
    unfold readProvider
    cases hfeed : feed.provider with
    | chainlink c => exact ⟨_, fun I _ => .pure⟩
    | reflector r =>
      obtain ⟨o, ho⟩ := readReflectorSource_ok (p := p) hfeed hshape
      refine ⟨o, fun I _ => ?_⟩
      simp only [ho]
      exact Spec.pure rfl
    | redStone m => exact ⟨_, fun I hA => readMultiFeedSource_computes hA m feed.decimals⟩
    | xoxno m => exact ⟨_, fun I hA => readMultiFeedSource_computes hA m feed.decimals⟩
  obtain ⟨v, hv⟩ := hprov
  exact ⟨_, fun I hA => Computes.bind (hv I hA) .pure⟩

/-! ## Computations without a trap -/

/-- The computation returns a value or an `OracleError`. -/
def NoTrap {α : Type} (x : ExceptT OracleError (Except Panic) α) : Prop :=
  ∃ r, x = ExceptT.mk (.ok r)

namespace NoTrap

variable {α β : Type}

theorem pure {a : α} : NoTrap (pure a) := ⟨.ok a, rfl⟩

theorem throw {e : OracleError} : NoTrap (throw e : ExceptT OracleError (Except Panic) α) :=
  ⟨.error e, rfl⟩

theorem data {x : Except OracleError α} :
    NoTrap (liftM x : ExceptT OracleError (Except Panic) α) := by
  cases x with
  | ok a => exact ⟨.ok a, rfl⟩
  | error e => exact ⟨.error e, rfl⟩

theorem bind {x : ExceptT OracleError (Except Panic) α}
    {f : α → ExceptT OracleError (Except Panic) β} (hx : NoTrap x) (hf : ∀ a, NoTrap (f a)) :
    NoTrap (x >>= f) := by
  obtain ⟨r, rfl⟩ := hx
  cases r with
  | ok a => exact hf a
  | error e => exact ⟨.error e, rfl⟩

/-- It computes its result in every session. -/
theorem computes {x : ExceptT OracleError (Except Panic) α} (h : NoTrap x) :
    ∃ r, ∀ I : Session → Prop, Computes I (liftM x : Reads α).run r := by
  obtain ⟨r, rfl⟩ := h
  refine ⟨r, fun I s hI => ?_⟩
  cases r <;> exact ⟨hI, rfl⟩

end NoTrap

theorem mulDivFloorSaturating_wad (x y : Int) :
    ∃ q, FpCore.mulDivFloorSaturating x y wad = .ok q := by
  unfold FpCore.mulDivFloorSaturating FpCore.requireNonzeroDivisor
  rw [Fallible.require_pos (by decide), Fallible.ok_bind]
  split
  · exact ⟨_, rfl⟩
  · exact ⟨_, rfl⟩

theorem curvePrice_noTrap (lp : CurveStableLpSource) (minimum : Int) :
    NoTrap (curvePrice p lp minimum) := by
  have hmul : ∀ x y : Int, NoTrap (liftM (FpCore.mulDivFloorSaturating x y wad)) := by
    intro x y
    obtain ⟨q, hq⟩ := mulDivFloorSaturating_wad x y
    rw [hq]
    exact ⟨.ok q, rfl⟩
  unfold curvePrice
  refine .bind .data fun vp => .bind .data fun supply => .bind (hmul _ _) fun w =>
    .bind (hmul _ _) fun v => ?_
  split
  · exact .bind .throw fun _ => .pure
  · exact .pure

theorem aquariusPrice_noTrap (lp : AquariusLpSource) (decimals : Nat) (stable : Bool)
    {a : PriceFeedRaw} (b : PriceFeedRaw) (ha : InI128 a.priceWad) :
    NoTrap (aquariusPrice p lp decimals stable a b) := by
  have htail : ∀ totalShares priceWad : Int, NoTrap (do
      let shareUnit ← okOr (I128.checkedPow 10 decimals) .invalidPrice
      let poolValueWad ← okOr (FpCore.tryMulDivHalfUp priceWad totalShares shareUnit)
        .invalidPrice
      if poolValueWad < lp.minPoolValueWad then
        throw OracleError.insufficientAquariusLiquidity
      return priceWad) := by
    intro totalShares priceWad
    refine .bind .data fun unit => .bind .data fun v => ?_
    split
    · exact .bind .throw fun _ => .pure
    · exact .pure
  unfold aquariusPrice
  refine .bind .data ?_
  rintro ⟨ra, rb⟩
  refine .bind .data fun totalShares => ?_
  dsimp only
  split
  · refine .bind .data fun amp => .bind ?_ fun w => htail totalShares w
    exact fairStableLpPriceWad_ok ⟨ra, lp.reserveADecimals, a.priceWad⟩
      ⟨rb, lp.reserveBDecimals, b.priceWad⟩ ⟨totalShares, decimals⟩ amp ha
  · refine .bind ?_ fun w => htail totalShares w
    exact fairLpPriceWad_ok ⟨ra, lp.reserveADecimals, a.priceWad⟩
      ⟨rb, lp.reserveBDecimals, b.priceWad⟩ ⟨totalShares, decimals⟩

/-! ## Readers -/

/-- With these results for the keys of `deps`, the reader returns one and the same result, of `Q`,
in every session that agrees with the providers. -/
def Determined (p : Providers) (vals : PriceKey → Except OracleError PriceFeedRaw)
    (deps : List PriceKey) {α : Type} (x : (PriceKey → Reads PriceFeedRaw) → Reads α)
    (Q : α → Prop) : Prop :=
  ∃ v : Except OracleError α, (∀ a, v = .ok a → Q a) ∧ ∀ (I : Session → Prop)
    (nested : PriceKey → Reads PriceFeedRaw), Agrees p I →
    (∀ d ∈ deps, Computes I (nested d).run (vals d)) → Computes I (x nested).run v

namespace Determined

variable {vals : PriceKey → Except OracleError PriceFeedRaw} {deps : List PriceKey} {α β : Type}
  {Q : α → Prop} {R : β → Prop}

theorem pure {a : α} (h : Q a) : Determined p vals deps (fun _ => pure a) Q :=
  ⟨.ok a, fun _ h' => by cases h'; exact h, fun _ _ _ _ => Computes.pure⟩

theorem throw {e : OracleError} : Determined p vals deps (fun _ => (throw e : Reads α)) Q :=
  ⟨.error e, nofun, fun _ _ _ _ => Computes.pure⟩

theorem bind {x : (PriceKey → Reads PriceFeedRaw) → Reads α}
    {f : (PriceKey → Reads PriceFeedRaw) → α → Reads β} (hx : Determined p vals deps x Q)
    (hf : ∀ a, Q a → Determined p vals deps (fun nested => f nested a) R) :
    Determined p vals deps (fun nested => x nested >>= f nested) R := by
  obtain ⟨v, hQ, hv⟩ := hx
  cases v with
  | error e =>
    refine ⟨.error e, nofun, fun I nested hA hd => ?_⟩
    exact Computes.bindE (g := fun _ => .error e) (hv I nested hA hd) nofun
  | ok a =>
    obtain ⟨w, hR, hw⟩ := hf a (hQ a rfl)
    refine ⟨w, hR, fun I nested hA hd => ?_⟩
    refine Computes.bindE (g := fun _ => w) (hv I nested hA hd) ?_
    rintro _ ⟨⟩
    exact hw I nested hA hd

theorem nested {d : PriceKey} (hd : d ∈ deps) (h : ∀ feed, vals d = .ok feed → InI128 feed.priceWad) :
    Determined p vals deps (fun nested => nested d) fun feed => InI128 feed.priceWad :=
  ⟨vals d, h, fun _ _ _ hn => hn d hd⟩

theorem data {x : Except OracleError α} :
    Determined p vals deps (fun _ => (liftM x : Reads α)) fun _ => True :=
  ⟨x, fun _ _ => trivial, fun _ _ _ _ => Computes.data⟩

theorem noTrap {x : ExceptT OracleError (Except Panic) α} (h : NoTrap x) :
    Determined p vals deps (fun _ => (liftM x : Reads α)) fun _ => True := by
  obtain ⟨r, hr⟩ := h.computes
  exact ⟨r, fun _ _ => trivial, fun I _ _ _ => hr I⟩

theorem feed {feed : FeedSource} (hshape : feedShape feed = .ok ()) :
    Determined p vals deps (fun _ => (liftM (readFeed p feed) : Reads _)) fun _ => True := by
  obtain ⟨v, hv⟩ := readFeed_determined (p := p) hshape
  exact ⟨.ok v, fun _ _ => trivial, fun I _ hA _ => Computes.engine (hv I hA)⟩

theorem foldlM {f : (PriceKey → Reads PriceFeedRaw) → β → α → Reads β} {l : List α}
    (h : ∀ x ∈ l, ∀ b, Determined p vals deps (fun nested => f nested b x) fun _ => True) :
    ∀ b, Determined p vals deps (fun nested => l.foldlM (f nested) b) fun _ => True := by
  induction l with
  | nil => exact fun b => pure trivial
  | cons x l ih =>
    intro b
    simp only [List.foldlM_cons]
    exact bind (h x List.mem_cons_self b) fun b' _ =>
      ih (fun y hy => h y (List.mem_cons_of_mem _ hy)) b'

end Determined

section Sources

variable {vals : PriceKey → Except OracleError PriceFeedRaw} {deps : List PriceKey}
  (hvals : ∀ d ∈ deps, ∀ feed, vals d = .ok feed → InI128 feed.priceWad)

include hvals

theorem readScaled_determined {scaled : ScaledSource} (hshape : feedShape scaled.factor = .ok ())
    (hd : scaled.quote ∈ deps) :
    Determined p vals deps (fun nested => readScaled p nested scaled) fun _ => True := by
  unfold readScaled
  refine .bind (.feed hshape) fun r _ => ?_
  cases r with
  | none => exact .pure trivial
  | some o =>
    obtain ⟨factor, factorStale⟩ := o
    dsimp only
    by_cases hbounds : factor.priceWad < scaled.minFactorWad ∨ scaled.maxFactorWad < factor.priceWad
    · simp only [if_pos hbounds]
      exact .bind (Q := fun _ => False) .throw fun _ h => h.elim
    · simp only [if_neg hbounds]
      exact .bind (.nested hd (hvals _ hd)) fun quote _ => .bind .data fun w _ => .pure trivial

theorem aquariusRead_determined (key : PriceKey) (lp : AquariusLpSource) (decimals : Nat)
    (stable : Bool) (ha : lp.keyA ∈ deps) (hb : lp.keyB ∈ deps) :
    Determined p vals deps (fun nested => aquariusRead p nested key lp decimals stable)
      fun _ => True := by
  unfold aquariusRead
  refine .bind .data fun _ _ => .bind (.nested ha (hvals _ ha)) fun a ha => ?_
  refine .bind (.nested hb (hvals _ hb)) fun b _ => ?_
  exact .bind (.noTrap (aquariusPrice_noTrap lp decimals stable b ha)) fun w _ => .pure trivial

theorem curveRead_determined (key : PriceKey) (lp : CurveStableLpSource) (decimals : Nat)
    (hcoins : ∀ coin ∈ lp.coins, .token coin ∈ deps) :
    Determined p vals deps (fun nested => curveRead p nested key lp decimals) fun _ => True := by
  unfold curveRead
  by_cases hpool : ¬ boundPool p key lp decimals = true
  · simp only [if_pos hpool]
    exact .bind (Q := fun _ => False) .throw fun _ h => h.elim
  · simp only [if_neg hpool]
    refine .bind (.foldlM (f := curveCoin) (fun coin hc seen => ?_) _) fun seen _ => ?_
    · exact .bind (.nested (hcoins coin hc) (hvals _ (hcoins coin hc))) fun _ _ => .pure trivial
    · exact .bind (.noTrap (curvePrice_noTrap lp seen.1)) fun w _ => .pure trivial

theorem evaluateSource_determined (key : PriceKey) {source : PriceSource} (decimals : Nat)
    (hshape : sourceShape source = .ok ()) (hdeps : ∀ d ∈ source.dependencies, d ∈ deps) :
    Determined p vals deps (fun nested => evaluateSource p nested key source decimals)
      fun _ => True := by
  cases source with
  | feed feed => exact .feed hshape
  | scaled scaled =>
    obtain ⟨_, hfeed, _⟩ := Fallible.bind_ok hshape
    exact readScaled_determined hvals hfeed (hdeps _ (by simp [PriceSource.dependencies]))
  | aquariusLp lp =>
    exact aquariusRead_determined hvals key lp decimals false
      (hdeps _ (by simp [PriceSource.dependencies])) (hdeps _ (by simp [PriceSource.dependencies]))
  | aquariusStableLp lp =>
    exact aquariusRead_determined hvals key lp decimals true
      (hdeps _ (by simp [PriceSource.dependencies])) (hdeps _ (by simp [PriceSource.dependencies]))
  | curveStableLp lp =>
    exact curveRead_determined hvals key lp decimals fun coin hc =>
      hdeps _ (List.mem_map_of_mem hc)

theorem readSource_determined (key : PriceKey) (oracle : AssetOracle) {source : PriceSource}
    (hshape : sourceShape source = .ok ()) (hdeps : ∀ d ∈ source.dependencies, d ∈ deps) :
    Determined p vals deps (fun nested => readSource p nested key oracle source)
      fun _ => True := by
  unfold readSource
  refine .bind (evaluateSource_determined hvals key oracle.assetDecimals hshape hdeps) fun r _ => ?_
  cases r with
  | none => exact .pure trivial
  | some o => exact .pure trivial

end Sources

/-- **Legs.** The legs of an oracle of valid shape are determined by the keys it composes over. -/
theorem compose_determined {vals : PriceKey → Except OracleError PriceFeedRaw} (key : PriceKey) {oracle : AssetOracle}
    (hvals : ∀ d ∈ oracle.dependencies, ∀ feed, vals d = .ok feed → InI128 feed.priceWad)
    (hshape : ∀ source ∈ oracle.sources, sourceShape source = .ok ()) :
    Determined p vals oracle.dependencies (fun nested => compose p nested key oracle)
      fun _ => True := by
  have hread : ∀ source ∈ oracle.sources, Determined p vals oracle.dependencies
      (fun nested => readSource p nested key oracle source) fun _ => True := fun source hs =>
    readSource_determined hvals key oracle (hshape source hs) fun d hd =>
      List.mem_flatMap.mpr ⟨source, hs, hd⟩
  unfold compose
  split
  · rename_i source hsources
    exact .bind (hread source (by simp [hsources])) fun first _ => .pure trivial
  · rename_i source source' hsources
    exact .bind (hread source (by simp [hsources])) fun first _ =>
      .bind (hread source' (by simp [hsources])) fun second _ => .pure trivial
  · exact .throw

end Lending.PriceAggregator
