import LendingXlm.PriceAggregator.Determined

/-!
# Quotes agree with prices

Resolving a key alone, in a new session, gives one outcome. A session is coherent when whatever it
has cached is what resolving that key alone gives; then every resolution of the registry's keys, at
whatever depth and however much is cached, gives the outcome of the key alone and leaves the
session coherent.

* `resolveNested_alone`: a nested key, cached or not;
* `resolveOutcome_alone`: any key, at any depth it is resolvable at;
* `quotes_agree_with_prices`: so the strict and the lenient query agree, whatever the batch.
-/

namespace Lending.PriceAggregator

open Transaction Validation

variable (p : Providers) (reg : Registry)

/-- A bulk read answers what single reads would. -/
def BulkFaithful : Prop :=
  ∀ contract feeds payloads, readPriceDataBulk p contract feeds = some payloads →
    ∀ entry ∈ feeds.zip payloads, p.readPriceDataForFeed contract entry.1 = some entry.2

/-- What resolving the key in a new session gives. -/
def alone (key : PriceKey) : Outcome × Option AssetOracle :=
  match (resolveOutcome p reg rootRoom key none).answer .new with
  | .ok r => r
  | .error _ => (.blank, none)

/-- The feed of an outcome, or the error that makes it unusable. -/
def settle (r : Outcome × Option AssetOracle) : Except OracleError PriceFeedRaw :=
  match r.1.failure r.2 with
  | some err => .error err
  | none => .ok (r.1.toFeed ((r.2.map AssetOracle.assetDecimals).getD 0))

/-- The status of a key resolved alone. -/
def statusOf (key : PriceKey) : PriceStatus := (alone p reg key).1.toStatus (alone p reg key).2

/-- Whatever is cached is what the providers, or resolving the key alone, would give; `stack` is
being resolved. -/
structure Coherent (stack : List PriceKey) (s : Session) : Prop where
  stack_eq : s.resolvingKeys = stack
  feeds : ∀ contract feedId data, s.feedCache contract feedId = some data →
    p.readPriceDataForFeed contract feedId = some data
  prices : ∀ key feed, s.keyPrices key = some feed → settle (alone p reg key) = .ok feed
  errors : ∀ key e, s.keyErrors key = some e → settle (alone p reg key) = .error e
  statuses : ∀ key status, s.keyStatuses key = some status → status = statusOf p reg key

variable {p reg}

theorem coherent_agrees (stack : List PriceKey) : Agrees p (Coherent p reg stack) where
  feeds := fun _ h => h.feeds
  setFeed := by
    intro s contract feedId data h hdata
    refine ⟨h.stack_eq, fun c f d hd => ?_, h.prices, h.errors, h.statuses⟩
    simp only [Session.setFeed] at hd
    split at hd
    · rename_i heq
      obtain ⟨rfl, rfl⟩ := heq
      cases hd
      exact hdata
    · exact h.feeds c f d hd

theorem coherent_stacked : Stacked (Coherent p reg) where
  stack_eq := fun _ _ h => h.stack_eq
  restack := fun _ _ _ h => ⟨rfl, h.feeds, h.prices, h.errors, h.statuses⟩

namespace Coherent

variable {stack : List PriceKey} {key : PriceKey}

theorem storePrice {feed : PriceFeedRaw} (h : settle (alone p reg key) = .ok feed) :
    Computes (Coherent p reg stack) (Session.storePrice key feed) () := by
  refine Spec.modify (fun s hs => ⟨hs.stack_eq, hs.feeds, fun k f hf => ?_, hs.errors,
    hs.statuses⟩) rfl
  by_cases hk : k = key
  · subst hk
    simp only [Function.update_self, Option.some.injEq] at hf
    exact hf ▸ h
  · simp only [Function.update_of_ne hk] at hf
    exact hs.prices k f hf

theorem storeError {e : OracleError} (h : settle (alone p reg key) = .error e) :
    Computes (Coherent p reg stack) (Session.storeError key e) () := by
  refine Spec.modify (fun s hs => ⟨hs.stack_eq, hs.feeds, hs.prices, fun k f hf => ?_,
    hs.statuses⟩) rfl
  by_cases hk : k = key
  · subst hk
    simp only [Function.update_self, Option.some.injEq] at hf
    exact hf ▸ h
  · simp only [Function.update_of_ne hk] at hf
    exact hs.errors k f hf

theorem storeStatus : Computes (Coherent p reg stack)
    (Session.storeStatus key (statusOf p reg key)) () := by
  refine Spec.modify (fun s hs => ⟨hs.stack_eq, hs.feeds, hs.prices, hs.errors,
    fun k st hst => ?_⟩) rfl
  by_cases hk : k = key
  · subst hk
    simp only [Function.update_self, Option.some.injEq] at hst
    exact hst.symm
  · simp only [Function.update_of_ne hk] at hst
    exact hs.statuses k st hst

end Coherent

/-! ## Nested keys -/

/-- A feed of a key whose oracle is known. -/
theorem settle_of_failure_none {r : Outcome × Option AssetOracle} {oracle : AssetOracle}
    (h : r.1.failure r.2 = none) (horacle : r.2 = some oracle) :
    settle r = .ok (r.1.toFeed oracle.assetDecimals) := by
  unfold settle
  rw [h, horacle]
  rfl

theorem settle_of_failure_some {r : Outcome × Option AssetOracle} {e : OracleError}
    (h : r.1.failure r.2 = some e) : settle r = .error e := by
  unfold settle
  rw [h]

/-- A nested key settles as it does alone, whether it is cached or resolved. -/
theorem resolveNested_alone {stack : List PriceKey}
    {resolveAt : PriceKey → Engine (Outcome × Option AssetOracle)}
    {validateAt : PriceKey → Reads Unit} {key : PriceKey} {oracle : AssetOracle}
    (hresolve : Computes (Coherent p reg stack) (resolveAt key) (alone p reg key))
    (hvalidate : SpecE (Coherent p reg stack) (fun _ => False) (validateAt key) (fun _ => True)
      fun _ => False)
    (horacle : (alone p reg key).2 = some oracle) :
    Computes (Coherent p reg stack) (resolveNested resolveAt validateAt key).run
      (settle (alone p reg key)) := by
  refine .ofSpecE (.bind (Q := Coherent p reg stack) (.engine Spec.get) fun session hs => ?_)
  split
  · rename_i cached _ hcached
    exact .bind hvalidate.sure fun _ _ => .pure (hs.prices _ _ hcached)
  · rename_i cached _ hcached
    exact .bind hvalidate.sure fun _ _ => .throw (hs.errors _ _ hcached)
  · refine .bind (.engine hresolve) fun r hr => ?_
    subst hr
    dsimp only
    split
    · rename_i err hfail
      have hsettle := settle_of_failure_some hfail
      split
      · exact .bind (.engine (Coherent.storeError hsettle)) fun _ _ => .throw hsettle
      · exact .throw hsettle
    · rename_i hnone
      have hsettle := settle_of_failure_none hnone horacle
      rw [horacle]
      refine .bind (Q := (oracle = ·)) (.data ?_ nofun) fun o ho => ?_
      · exact fun o ho => Option.some.inj (Fallible.orThrow_ok_iff.mp ho)
      subst ho
      exact .bind (.engine (Coherent.storePrice hsettle)) fun _ _ => .pure hsettle

/-! ## Every key -/

/-- A settled price is within the bounds of a sanity band. -/
theorem settle_inI128 {r : Outcome × Option AssetOracle} {oracle : AssetOracle}
    {feed : PriceFeedRaw} (horacle : r.2 = some oracle)
    (hmax : oracle.maxSanityPriceWad ≤ maxReasonablePriceWad) (h : settle r = .ok feed) :
    InI128 feed.priceWad := by
  unfold settle at h
  split at h
  · cases h
  · rename_i hnone
    cases h
    rw [horacle] at hnone
    obtain ⟨-, -, -, hpos, -, hle⟩ := Outcome.failure_eq_none.mp hnone
    have hle : r.1.priceWad ≤ maxReasonablePriceWad := le_trans hle hmax
    have hlarge : maxReasonablePriceWad ≤ i128Max := by decide
    exact inI128_of_nonneg hpos.le (le_trans hle hlarge)

namespace Registry.WellFormed

variable {key : PriceKey} {oracle : AssetOracle}

theorem shape (hw : reg.WellFormed) (h : reg.getOracle key = some oracle) :
    ∀ source ∈ oracle.sources, sourceShape source = .ok () := by
  obtain ⟨derived, -, hok⟩ := hw.derives h
  obtain ⟨-, -, -, hshape, -⟩ := validateDerived_ok_iff.mp hok
  exact Fallible.forM_ok hshape

theorem maxSanity (hw : reg.WellFormed) (h : reg.getOracle key = some oracle) :
    oracle.maxSanityPriceWad ≤ maxReasonablePriceWad := by
  obtain ⟨derived, -, hok⟩ := hw.derives h
  obtain ⟨hsanity, -⟩ := validateDerived_ok_iff.mp hok
  obtain ⟨_, hbounds, _⟩ := Fallible.bind_ok hsanity
  simp only [assertOracle, Fallible.require_ok_iff] at hbounds
  exact hbounds.2.2.2

end Registry.WellFormed

theorem Engine.answer_of_computes {α : Type} {I : Session → Prop} {x : Engine α} {a : α}
    {s : Session} (h : Computes I x a) (hs : I s) : x.answer s = .ok a := by
  obtain ⟨a', s', hrun, -, rfl⟩ := h.returns hs
  simp only [Engine.answer, hrun]

theorem coherent_new : Coherent p reg [] .new := ⟨rfl, nofun, nofun, nofun, nofun⟩

/-- **Every key.** A resolvable key of a well-formed registry resolves, at any depth it is resolvable
at and in any coherent session, to what it is alone. The induction is on the depth of what it
composes over, for all depths and stacks it may be met at. -/
theorem resolveOutcome_alone (hw : reg.WellFormed) (n : Nat) :
    ∀ stack key, Resolvable reg n stack key →
      (∃ oracle, reg.getOracle key = some oracle ∧ (alone p reg key).2 = some oracle) ∧
      ∀ room stack', Resolvable reg room stack' key →
        Computes (Coherent p reg stack') (resolveOutcome p reg room key none)
          (alone p reg key) := by
  induction n with
  | zero => exact fun _ _ h => h.elim
  | succ n ih =>
    intro stack key h
    obtain ⟨-, ⟨oracle, horacle⟩, hdeps⟩ := h
    rw [reg.succ_of horacle] at hdeps
    have hsettle : ∀ d ∈ oracle.dependencies, ∀ feed, settle (alone p reg d) = .ok feed →
        InI128 feed.priceWad := by
      intro d hd feed hfeed
      obtain ⟨⟨o, ho, ho'⟩, -⟩ := ih _ d (hdeps d hd)
      exact settle_inI128 ho' (hw.maxSanity ho) hfeed
    obtain ⟨legs, -, hlegs⟩ := compose_determined (p := p) key hsettle (hw.shape horacle)
    -- the legs are the same at every depth, so the outcome is
    have hall : ∀ room stack', Resolvable reg room stack' key →
        Computes (Coherent p reg stack') (resolveOutcome p reg room key none)
          (outcomeOf oracle legs, some oracle) := by
      intro room stack' hres
      cases room with
      | zero => exact hres.elim
      | succ room =>
        obtain ⟨hkey, -, hdeps'⟩ := hres
        rw [reg.succ_of horacle] at hdeps'
        have hnested : ∀ d ∈ oracle.dependencies, Computes (Coherent p reg (key :: stack'))
            (resolveNested (fun k => resolveOutcome p reg room k none)
              (validateCachedPath reg room) d).run (settle (alone p reg d)) := by
          intro d hd
          obtain ⟨⟨o, -, ho⟩, hd'⟩ := ih _ d (hdeps d hd)
          exact resolveNested_alone (hd' room _ (hdeps' d hd))
            (coherent_stacked.validateCachedPath_resolves room _ d (hdeps' d hd)) ho
        have hcompose := hlegs _ _ (coherent_agrees (key :: stack')) hnested
        refine Spec.post (coherent_stacked.resolveOutcome_of_compose hkey horacle hcompose) ?_
        rintro r ⟨_, rfl, rfl⟩
        rfl
    have halone : alone p reg key = (outcomeOf oracle legs, some oracle) := by
      have hroot := Engine.answer_of_computes (hall rootRoom [] (hw.resolvable horacle)) coherent_new
      simp only [alone, hroot]
    rw [halone]
    exact ⟨⟨oracle, horacle, rfl⟩, hall⟩

/-- From the root any key, registered or not, resolves to what it is alone. -/
theorem resolveOutcome_root (hw : reg.WellFormed) (key : PriceKey) :
    Computes (Coherent p reg []) (resolveOutcome p reg rootRoom key none) (alone p reg key) := by
  cases horacle : reg.getOracle key with
  | some oracle =>
    have hres := hw.resolvable horacle
    exact (resolveOutcome_alone hw rootRoom [] key hres).2 rootRoom [] hres
  | none =>
    have hroot : Computes (Coherent p reg []) (resolveOutcome p reg rootRoom key none)
        (.withErr .oracleNotConfigured, none) :=
      coherent_stacked.resolveOutcome_unregistered List.not_mem_nil horacle
    have halone : alone p reg key = (.withErr .oracleNotConfigured, none) := by
      simp only [alone, Engine.answer_of_computes hroot coherent_new]
    exact halone ▸ hroot

/-! ## Queries -/

theorem force_eq_settle (r : Outcome × Option AssetOracle) :
    r.1.force r.2 = (settle r).mapError Panic.oracle := by
  unfold Outcome.force settle
  cases hfail : r.1.failure r.2 with
  | some err => rfl
  | none =>
    cases horacle : r.2 with
    | none =>
      rw [horacle] at hfail
      unfold Outcome.failure at hfail
      split at hfail <;> cases hfail
    | some oracle => rfl

variable (p reg) in
/-- The panic is the error of one of the keys, resolved alone. -/
def RevertsFor (keys : List PriceKey) (e : Panic) : Prop :=
  ∃ key ∈ keys, ∃ err, settle (alone p reg key) = .error err ∧ e = .oracle err

/-- The strict query of a key answers its price alone, or reverts with its error alone. -/
theorem resolve_alone (hw : reg.WellFormed) {keys : List PriceKey} {key : PriceKey}
    (hkey : key ∈ keys) :
    Spec (Coherent p reg []) (RevertsFor p reg keys) (resolve p reg key)
      fun feed => settle (alone p reg key) = .ok feed := by
  refine Spec.bind Spec.get fun s hs => ?_
  split
  · rename_i cached hcached
    exact Spec.pure (hs.prices _ _ hcached)
  · refine Spec.bind (resolveOutcome_root hw key).sure fun r hr => ?_
    subst hr
    dsimp only
    rw [force_eq_settle]
    cases hsettle : settle (alone p reg key) with
    | error err =>
      exact Spec.bind (Q := fun _ => False) (Spec.throw ⟨key, hkey, err, hsettle, rfl⟩) nofun
    | ok feed =>
      exact Spec.bind (Q := (feed = ·)) (Spec.pure rfl) fun _ hfeed =>
        hfeed ▸ Spec.bind (Coherent.storePrice hsettle).sure fun _ _ => Spec.pure rfl

theorem resolveStatus_alone (hw : reg.WellFormed) (key : PriceKey) :
    Computes (Coherent p reg []) (resolveStatus p reg key) (statusOf p reg key) := by
  refine Spec.bind Spec.get fun s hs => ?_
  split
  · rename_i cached hcached
    exact Spec.pure (hs.statuses _ _ hcached)
  · exact Computes.bind (resolveOutcome_root hw key) (Computes.bind Coherent.storeStatus .pure)

/-- The prefetch leaves the session coherent when bulk reads are faithful. -/
theorem coherent_warmed (hp : BulkFaithful p) (keys : List PriceKey) :
    Coherent p reg [] (warmedSession p reg keys) := by
  refine warmedSession_inv (J := Coherent p reg []) coherent_new (fun s c f d hs hdata => ?_) keys
  refine (coherent_agrees []).setFeed s c f d hs ?_
  rcases hdata with h | ⟨feeds, payloads, hbulk, hmem⟩
  · exact h
  · exact hp c feeds payloads hbulk (f, d) hmem

/-- The lenient query answers each key's status alone. -/
theorem quotes_alone (hp : BulkFaithful p) (hw : reg.WellFormed) (keys : List PriceKey) :
    ∃ out, quotes p reg keys = .ok out ∧ (∀ key ∈ keys, out key = some (statusOf p reg key)) ∧
      ∀ key ∉ keys, out key = none := by
  have hall := collectAnswers_spec fun key (_ : key ∈ keys) =>
    resolveStatus_alone (p := p) hw key
  obtain ⟨out, s', hrun, -, hin, hout⟩ := hall.returns (coherent_warmed hp keys)
  refine ⟨out, by simp only [quotes, Engine.answer, hrun], fun key hkey => ?_, hout⟩
  obtain ⟨status, hstatus, rfl⟩ := hin key hkey
  exact hstatus

/-- The strict query answers each key's feed alone, or reverts with the error of one of them. -/
theorem prices_alone (hp : BulkFaithful p) (hw : reg.WellFormed) (keys : List PriceKey) :
    match prices p reg keys with
    | .ok out => ∀ key ∈ keys, ∃ feed, out key = some feed ∧ settle (alone p reg key) = .ok feed
    | .error e => RevertsFor p reg keys e := by
  have hquery : ∀ key ∈ keys, Spec (Coherent p reg []) (RevertsFor p reg keys) (resolve p reg key)
      fun feed => settle (alone p reg key) = .ok feed := fun key hkey => resolve_alone hw hkey
  have hall := collectAnswers_spec hquery _ (coherent_warmed hp keys)
  unfold prices Engine.answer
  cases hrun : collectAnswers (resolve p reg) keys (warmedSession p reg keys) with
  | ok out s' =>
    rw [hrun] at hall
    exact hall.2.1
  | error e s' =>
    rw [hrun] at hall
    exact hall

/-- The strict query of one key. -/
theorem prices_singleton (hp : BulkFaithful p) (hw : reg.WellFormed) (key : PriceKey) :
    match settle (alone p reg key) with
    | .ok feed => ∃ out, prices p reg [key] = .ok out ∧ out key = some feed
    | .error err => prices p reg [key] = .error (.oracle err) := by
  have h := prices_alone hp hw [key]
  cases hrun : prices p reg [key] with
  | ok out =>
    rw [hrun] at h
    obtain ⟨feed, hout, hsettle⟩ := h key (List.mem_singleton_self key)
    rw [hsettle]
    exact ⟨out, rfl, hout⟩
  | error e =>
    rw [hrun] at h
    obtain ⟨k, hk, err, hsettle, rfl⟩ := h
    rw [← List.mem_singleton.mp hk, hsettle]

/-- A status is valid exactly when its key settles, with the same price; else it has the code of
the error. -/
theorem statusOf_settle (key : PriceKey) :
    match settle (alone p reg key) with
    | .ok feed => (statusOf p reg key).valid = true ∧
        feed.priceWad = (statusOf p reg key).finalWad ∧
        feed.timestamp = (statusOf p reg key).priceTimestamp
    | .error err => (statusOf p reg key).valid = false ∧
        (statusOf p reg key).errorCode = some err.code := by
  unfold statusOf settle
  cases hfail : (alone p reg key).1.failure (alone p reg key).2 with
  | some err =>
    refine ⟨?_, ?_⟩
    · unfold Outcome.toStatus
      rw [hfail]
      split <;> rfl
    · rw [Outcome.toStatus_errorCode, hfail]
      rfl
  | none =>
    have herr : (alone p reg key).1.err = none := by
      unfold Outcome.failure at hfail
      split at hfail
      · cases hfail
      · assumption
    unfold Outcome.toStatus
    rw [hfail, herr]
    exact ⟨rfl, rfl, rfl⟩

/-- **Quotes agree with prices.** When bulk reads answer what single reads would, every key of a
well-formed registry has one status: `quotes` answers it in every batch that asks for the key. It is
valid exactly when `prices` of the key alone succeeds, with the same price and timestamp, and else
carries the code of the error that reverts with. A batch of `prices` succeeds exactly when each key
alone does, with the same feeds, and reverts as one of its keys alone would. -/
theorem quotes_agree_with_prices (p : Providers) (reg : Registry) (hp : BulkFaithful p)
    (hw : reg.WellFormed) :
    ∃ status : PriceKey → PriceStatus,
      (∀ keys, ∃ out, quotes p reg keys = .ok out ∧
        (∀ key ∈ keys, out key = some (status key)) ∧ ∀ key ∉ keys, out key = none) ∧
      (∀ key, ((status key).valid = true ↔ ∃ out, prices p reg [key] = .ok out) ∧
        (∀ out, prices p reg [key] = .ok out → ∃ feed, out key = some feed ∧
          feed.priceWad = (status key).finalWad ∧
          feed.timestamp = (status key).priceTimestamp) ∧
        ∀ e, prices p reg [key] = .error e →
          ∃ err, e = .oracle err ∧ (status key).errorCode = some err.code) ∧
      ∀ keys, match prices p reg keys with
        | .ok out => ∀ key ∈ keys, ∃ alone, prices p reg [key] = .ok alone ∧
            out key = alone key
        | .error e => ∃ key ∈ keys, prices p reg [key] = .error e := by
  refine ⟨statusOf p reg, quotes_alone hp hw, fun key => ?_, fun keys => ?_⟩
  · have hone := prices_singleton hp hw key
    have hstatus := @statusOf_settle p reg key
    cases hsettle : settle (alone p reg key) with
    | ok feed =>
      rw [hsettle] at hone hstatus
      obtain ⟨out, hout, hfeed⟩ := hone
      refine ⟨⟨fun _ => ⟨out, hout⟩, fun _ => hstatus.1⟩, fun out' h => ?_, fun e h => ?_⟩
      · rw [hout] at h
        cases h
        exact ⟨feed, hfeed, hstatus.2⟩
      · rw [hout] at h
        cases h
    | error err =>
      rw [hsettle] at hone hstatus
      refine ⟨⟨fun h => ?_, fun ⟨out, h⟩ => ?_⟩, fun out h => ?_, fun e h => ?_⟩
      · rw [hstatus.1] at h
        cases h
      · rw [hone] at h
        cases h
      · rw [hone] at h
        cases h
      · rw [hone] at h
        cases h
        exact ⟨err, rfl, hstatus.2⟩
  · have hall := prices_alone hp hw keys
    cases hrun : prices p reg keys with
    | ok out =>
      rw [hrun] at hall
      intro key hkey
      obtain ⟨feed, hfeed, hsettle⟩ := hall key hkey
      have hone := prices_singleton hp hw key
      rw [hsettle] at hone
      obtain ⟨out', hout', hfeed'⟩ := hone
      exact ⟨out', hout', by rw [hfeed, hfeed']⟩
    | error e =>
      rw [hrun] at hall
      obtain ⟨key, hkey, err, hsettle, rfl⟩ := hall
      have hone := prices_singleton hp hw key
      rw [hsettle] at hone
      exact ⟨key, hkey, hone⟩

/-- Token 1, composed over token 2, has a valid status in a batch with duplicates. -/
theorem quotes_agree_with_prices_sample : ∃ status : PriceStatus, status.valid = true ∧
    (∃ out, quotes Sample.redStone (Registry.run Sample.calls) [.token 2, .token 1, .token 2] =
      .ok out ∧ out (.token 1) = some status) ∧
    ∃ out, prices Sample.redStone (Registry.run Sample.calls) [.token 1] = .ok out := by
  have hfaithful : BulkFaithful Sample.redStone := by
    intro contract feeds payloads hbulk entry hentry
    obtain ⟨hread, -⟩ := Option.filter_eq_some_iff.mp hbulk
    exact List.forall₂_zip (Sample.mapM_payload hread) hentry
  have hok : (prices Sample.redStone (Registry.run Sample.calls) [.token 1]).isOk = true := by
    decide +kernel
  obtain ⟨status, hquotes, hprices, -⟩ := quotes_agree_with_prices Sample.redStone
    (Registry.run Sample.calls) hfaithful (Registry.run_wellFormed _)
  have halone : ∃ out, prices Sample.redStone (Registry.run Sample.calls) [.token 1] = .ok out := by
    cases h : prices Sample.redStone (Registry.run Sample.calls) [.token 1] with
    | ok out => exact ⟨out, rfl⟩
    | error e =>
      rw [h] at hok
      cases hok
  obtain ⟨out, hout, hin, -⟩ := hquotes [.token 2, .token 1, .token 2]
  exact ⟨status (.token 1), (hprices _).1.mpr halone, ⟨out, hout, hin _ (by decide)⟩, halone⟩

end Lending.PriceAggregator
