import LendingXlm.PriceAggregator.Registry

/-!
# A well-formed registry resolves

In a well-formed registry a registered key is resolvable from the root, so nothing that resolving
it reports is about the configuration: no cycle, no exhausted depth, no unregistered key and no
wrong number of sources.

* `Stacked.validateCachedPath_resolves`: the path check of a cached key passes;
* `resolveOutcome_settled`: no outcome carries a configuration error;
* `registry_stays_well_formed`: both, for every registry that admin calls lead to.
-/

namespace Lending.PriceAggregator

open Transaction

variable {p : Providers} {reg : Registry}

/-! ## Sessions and their stacks -/

/-- An invariant for each stack of keys being resolved, which is about the rest of the session. -/
structure Stacked (J : List PriceKey → Session → Prop) : Prop where
  stack_eq : ∀ stack s, J stack s → s.resolvingKeys = stack
  restack : ∀ stack stack' s, J stack s → J stack' { s with resolvingKeys := stack' }

namespace Stacked

variable {J : List PriceKey → Session → Prop} {T : Panic → Prop} {stack : List PriceKey}
  {key : PriceKey}

theorem push (hJ : Stacked J) (hkey : key ∉ stack) :
    Leads (J stack) (J (key :: stack)) T (Session.pushKey key) fun _ => True := by
  intro s hs
  rw [Session.pushKey_run, hJ.stack_eq stack s hs, if_neg hkey]
  exact ⟨hJ.restack _ _ _ hs, trivial⟩

theorem pop (hJ : Stacked J) :
    Leads (J (key :: stack)) (J stack) T Session.popKey fun _ => True := by
  refine Leads.modify (fun s hs => ?_) trivial
  rw [hJ.stack_eq _ s hs]
  exact hJ.restack _ _ _ hs

theorem isResolving (hJ : Stacked J) {s : Session} (hs : J stack s) (hkey : key ∉ stack) :
    s.isResolving key = false := by
  simp only [Session.isResolving, hJ.stack_eq stack s hs, hkey, decide_false]

/-- **Cached paths.** The check of a cached key passes when the key is resolvable. -/
theorem validateCachedPath_resolves (hJ : Stacked J) (room : Nat) :
    ∀ stack key, Resolvable reg room stack key →
      SpecE (J stack) T (validateCachedPath reg room key) (fun _ => True) fun _ => False := by
  induction room with
  | zero => exact fun _ _ h => h.elim
  | succ room ih =>
    intro stack key h
    obtain ⟨hkey, ⟨oracle, horacle⟩, hdeps⟩ := h
    rw [reg.succ_of horacle] at hdeps
    unfold validateCachedPath
    refine .bind (Q := J stack) (.engine Spec.get) fun s hs => ?_
    rw [hJ.isResolving hs hkey, horacle]
    refine .bind (Q := (oracle = ·)) (.data (fun o ho => ?_) fun e he => ?_) fun o ho => ?_
    · exact Option.some.inj (Fallible.orThrow_ok_iff.mp ho)
    · cases he
    subst ho
    refine Leads.bindE (J := J (key :: stack)) (Leads.engine (hJ.push hkey)) fun _ _ => ?_
    have hloop : SpecE (J (key :: stack)) T
        (oracle.dependencies.forM (validateCachedPath reg room)) (fun _ => True)
        fun _ => False := by
      generalize oracle.dependencies = deps at hdeps
      induction deps with
      | nil => exact .pure trivial
      | cons d deps ihdeps =>
        exact .bind (ih _ d (hdeps d List.mem_cons_self)) fun _ _ =>
          ihdeps fun k hk => hdeps k (List.mem_cons_of_mem _ hk)
    refine Leads.bindE (Q := fun r => ∃ u, r = .ok u) (J := J (key :: stack))
      (Leads.engine (Spec.post hloop ?_)) fun result hresult => ?_
    · rintro (_ | u) hr
      · exact hr.elim
      · exact ⟨u, rfl⟩
    · obtain ⟨u, rfl⟩ := hresult
      exact Leads.bindE (Leads.engine hJ.pop) fun _ _ => fun _ hI => ⟨hI, trivial⟩

/-- A registered key off the stack resolves to what its legs, composed with the key on the stack,
come out as. -/
theorem resolveOutcome_of_compose (hJ : Stacked J) {room : Nat} {oracle : AssetOracle}
    {Q : Except OracleError Legs → Prop} (hkey : key ∉ stack)
    (horacle : reg.getOracle key = some oracle)
    (hcompose : Spec (J (key :: stack)) T (compose p
      (resolveNested (fun k => resolveOutcome p reg room k none) (validateCachedPath reg room))
      key oracle).run Q) :
    Spec (J stack) T (resolveOutcome p reg (room + 1) key none) fun r =>
      ∃ legs, Q legs ∧ r = (outcomeOf oracle legs, some oracle) := by
  unfold resolveOutcome
  refine Spec.bind Spec.get fun s hs => ?_
  rw [hJ.isResolving hs hkey, horacle]
  exact Leads.bind (hJ.push hkey) fun _ _ => Leads.bind hcompose fun legs hlegs =>
    Leads.bind hJ.pop fun _ _ => Spec.pure ⟨legs, hlegs, rfl⟩

/-- An unregistered key resolves to itself being missing. -/
theorem resolveOutcome_unregistered (hJ : Stacked J) {room : Nat} (hkey : key ∉ stack)
    (hnone : reg.getOracle key = none) :
    Spec (J stack) T (resolveOutcome p reg (room + 1) key none)
      (· = (.withErr .oracleNotConfigured, none)) := by
  unfold resolveOutcome
  refine Spec.bind Spec.get fun s hs => ?_
  rw [hJ.isResolving hs hkey, hnone]
  exact Leads.bind (hJ.push hkey) fun _ _ => Leads.bind hJ.pop fun _ _ => Spec.pure rfl

end Stacked

/-! ## No configuration error -/

/-- Nothing about the configuration. -/
def Mild (e : Panic) : Prop := ¬ e.IsConfig

/-- The status does not report a configuration error. -/
def PriceStatus.Mild (status : PriceStatus) : Prop :=
  ∀ e : OracleError, e.IsConfig → status.errorCode ≠ some e.code

variable (p reg) in
/-- What is cached says nothing about the configuration, and `stack` is being resolved. -/
structure Settled (stack : List PriceKey) (s : Session) : Prop where
  stack_eq : s.resolvingKeys = stack
  feeds : FeedsSound p s
  errors : ∀ key e, s.keyErrors key = some e → ¬ e.IsConfig
  statuses : ∀ key status, reg.Registered key → s.keyStatuses key = some status → status.Mild

theorem settled_admits (stack : List PriceKey) : Admits p (Settled p reg stack) Mild where
  feeds := fun _ h => h.feeds
  setFeed := fun _ _ _ _ h hdata => ⟨h.stack_eq, h.feeds.setFeed hdata, h.errors, h.statuses⟩
  traps := fun _ h => h

theorem settled_stacked : Stacked (Settled p reg) where
  stack_eq := fun _ _ h => h.stack_eq
  restack := fun _ _ _ h => ⟨rfl, h.feeds, h.errors, h.statuses⟩

/-- The outcome carries no configuration error. -/
def OutcomeMild (r : Outcome × Option AssetOracle) : Prop :=
  (∃ oracle, r.2 = some oracle) ∧ ∀ e, r.1.err = some e → ¬ e.IsConfig

theorem OutcomeMild.failure {out : Outcome} {oracle : Option AssetOracle}
    (h : OutcomeMild (out, oracle)) {e : OracleError} (he : out.failure oracle = some e) :
    ¬ e.IsConfig := by
  obtain ⟨⟨oracle, rfl⟩, herr⟩ := h
  unfold Outcome.failure at he
  split at he
  · rename_i err hout
    cases he
    exact herr _ hout
  · dsimp only at he
    split_ifs at he <;> cases he <;> decide

theorem OutcomeMild.configFailure {out : Outcome} {oracle : Option AssetOracle}
    (h : OutcomeMild (out, oracle)) : out.configFailure = none := by
  unfold Outcome.configFailure
  split
  case h_5 => rfl
  all_goals
    rename_i hout
    exact absurd (by decide) (h.2 _ hout)

/-- A nested key whose resolution is mild. -/
theorem resolveNested_settled {stack : List PriceKey}
    {resolveAt : PriceKey → Engine (Outcome × Option AssetOracle)}
    {validateAt : PriceKey → Reads Unit} {key : PriceKey}
    (hresolve : Spec (Settled p reg stack) Mild (resolveAt key) OutcomeMild)
    (hvalidate : SpecE (Settled p reg stack) Mild (validateAt key) (fun _ => True)
      fun _ => False) :
    SpecE (Settled p reg stack) Mild (resolveNested resolveAt validateAt key) (fun _ => True)
      fun e => ¬ e.IsConfig := by
  refine .bind (Q := Settled p reg stack) (.engine Spec.get) fun session hsession => ?_
  split
  · exact .bind hvalidate.sure fun _ _ => .pure trivial
  · rename_i cached _ hcached
    exact .bind hvalidate.sure fun _ _ => .throw (hsession.errors _ _ hcached)
  · refine .bind (.engine hresolve) fun r hr => ?_
    obtain ⟨out, oracle⟩ := r
    dsimp only
    split
    · rename_i err hfail
      have herr := OutcomeMild.failure hr hfail
      rw [if_pos (by rw [OutcomeMild.configFailure hr]; rfl)]
      refine .bind (Q := fun _ => True) (.engine (Spec.modify (fun s hs => ?_) trivial))
        fun _ _ => .throw herr
      refine ⟨hs.stack_eq, hs.feeds, fun k e he => ?_, hs.statuses⟩
      by_cases hk : k = key
      · subst hk
        simp only [Function.update_self, Option.some.injEq] at he
        exact he ▸ herr
      · simp only [Function.update_of_ne hk] at he
        exact hs.errors k e he
    · obtain ⟨⟨oracle, rfl⟩, -⟩ := hr
      refine .bind (Q := fun _ => True) (.data (fun _ _ => trivial) nofun) fun o _ => ?_
      exact .bind (.engine (Spec.modify (Q := fun _ => True)
        (fun s hs => ⟨hs.stack_eq, hs.feeds, hs.errors, hs.statuses⟩) trivial))
        fun _ _ => .pure trivial

/-- **Outcomes.** At every depth, a resolvable key of a well-formed registry has a mild outcome. -/
theorem resolveOutcome_settled (hw : reg.WellFormed) (room : Nat) :
    ∀ stack key, Resolvable reg room stack key →
      Spec (Settled p reg stack) Mild (resolveOutcome p reg room key none) OutcomeMild := by
  induction room with
  | zero => exact fun _ _ h => h.elim
  | succ room ih =>
    intro stack key h
    obtain ⟨hkey, ⟨oracle, horacle⟩, hdeps⟩ := h
    rw [reg.succ_of horacle] at hdeps
    have hnested : ∀ d ∈ oracle.dependencies, SpecE (Settled p reg (key :: stack)) Mild
        (resolveNested (fun k => resolveOutcome p reg room k none) (validateCachedPath reg room) d)
        (fun _ => ∃ _ : List Leaf, True) fun e => ¬ e.IsConfig := fun d hd =>
      .post (resolveNested_settled (ih _ d (hdeps d hd))
        (settled_stacked.validateCachedPath_resolves room _ d (hdeps d hd))) fun _ _ => ⟨[], trivial⟩
    have hcompose := compose_spec (M := fun _ _ _ => True) (settled_admits (key :: stack))
      (fun _ h => h) key oracle ((hw.sourceCount horacle).imp_right .inl) hnested
    refine (settled_stacked.resolveOutcome_of_compose hkey horacle hcompose).post ?_
    rintro r ⟨legs, hlegs, rfl⟩
    refine ⟨⟨oracle, rfl⟩, fun e he => ?_⟩
    cases legs with
    | error err =>
      cases he
      exact hlegs
    | ok legs =>
      cases legs <;> cases he
      decide

/-! ## Queries -/

theorem Settled.storePrice {stack : List PriceKey} {key : PriceKey} {feed : PriceFeedRaw} :
    Spec (Settled p reg stack) Mild (Session.storePrice key feed) fun _ => True :=
  Spec.modify (fun _ hs => ⟨hs.stack_eq, hs.feeds, hs.errors, hs.statuses⟩) trivial

theorem resolve_settled (hw : reg.WellFormed) {key : PriceKey} (hkey : reg.Registered key) :
    Spec (Settled p reg []) Mild (resolve p reg key) fun _ => True := by
  obtain ⟨oracle, horacle⟩ := hkey
  refine Spec.bind Spec.get fun s _ => ?_
  split
  · exact Spec.pure trivial
  · refine Spec.bind (resolveOutcome_settled hw rootRoom [] key (hw.resolvable horacle))
      fun r hr => ?_
    obtain ⟨out, oracle'⟩ := r
    refine Spec.bind (Spec.lift (Q := fun _ => True) (fun _ _ => trivial) fun e he => ?_)
      fun feed _ => Spec.bind Settled.storePrice fun _ _ => Spec.pure trivial
    unfold Outcome.force at he
    obtain ⟨o, ho⟩ := hr.1
    dsimp only at ho
    subst ho
    split at he
    · rename_i err hfail
      cases he
      exact mt Panic.isConfig_oracle.mp (OutcomeMild.failure hr hfail)
    · cases he

theorem Outcome.toStatus_errorCode (out : Outcome) (oracle : Option AssetOracle) :
    (out.toStatus oracle).errorCode = (out.failure oracle).map OracleError.code := by
  unfold Outcome.toStatus
  split <;> rfl

theorem OutcomeMild.toStatus {out : Outcome} {oracle : Option AssetOracle}
    (h : OutcomeMild (out, oracle)) : (out.toStatus oracle).Mild := by
  intro e he hcode
  rw [Outcome.toStatus_errorCode, Option.map_eq_some_iff] at hcode
  obtain ⟨e', hfail, hcode⟩ := hcode
  rw [OracleError.code_injective hcode] at hfail
  exact h.failure hfail he

theorem resolveStatus_settled (hw : reg.WellFormed) (key : PriceKey) :
    Spec (Settled p reg []) Mild (resolveStatus p reg key)
      fun status => reg.Registered key → status.Mild := by
  have hstore : ∀ status : PriceStatus, (reg.Registered key → status.Mild) →
      Spec (Settled p reg []) Mild (do Session.storeStatus key status; return status)
        fun status => reg.Registered key → status.Mild := by
    intro status hstatus
    refine Spec.bind (Spec.modify (Q := fun _ => True) (fun s hs => ?_) trivial) fun _ _ =>
      Spec.pure hstatus
    refine ⟨hs.stack_eq, hs.feeds, hs.errors, fun k st hk hst => ?_⟩
    by_cases heq : k = key
    · subst heq
      simp only [Function.update_self, Option.some.injEq] at hst
      exact hst ▸ hstatus hk
    · simp only [Function.update_of_ne heq] at hst
      exact hs.statuses k st hk hst
  refine Spec.bind Spec.get fun s hs => ?_
  split
  · rename_i cached hcached
    exact Spec.pure fun hk => hs.statuses _ _ hk hcached
  · cases horacle : reg.getOracle key with
    | none =>
      refine Spec.bind (settled_stacked.resolveOutcome_unregistered List.not_mem_nil horacle)
        fun r _ => hstore _ ?_
      rintro ⟨oracle, h⟩
      rw [horacle] at h
      cases h
    | some oracle =>
      exact Spec.bind (resolveOutcome_settled hw rootRoom [] key (hw.resolvable horacle))
        fun r hr => hstore _ fun _ => OutcomeMild.toStatus hr

theorem settled_warmed (keys : List PriceKey) :
    Settled p reg [] (warmedSession p reg keys) :=
  warmedSession_inv (J := Settled p reg []) ⟨rfl, nofun, nofun, nofun⟩
    (fun _ _ _ _ hs hdata => (settled_admits []).setFeed _ _ _ _ hs hdata) keys

theorem Engine.answer_error {α : Type} {x : Engine α} {s : Session} {e : Panic}
    (h : x.answer s = .error e) : ∃ s', x s = .error e s' := by
  unfold Engine.answer at h
  split at h
  · cases h
  · rename_i e' s' hx
    cases h
    exact ⟨s', hx⟩

/-- Resolving registered keys never ends in a configuration error. -/
theorem prices_settled (hw : reg.WellFormed) {keys : List PriceKey}
    (hkeys : ∀ key ∈ keys, reg.Registered key) {e : OracleError}
    (h : prices p reg keys = .error (.oracle e)) : ¬ e.IsConfig := by
  obtain ⟨s', hrun⟩ := Engine.answer_error h
  have hall := collectAnswers_spec fun key hkey => resolve_settled (p := p) hw (hkeys key hkey)
  exact mt Panic.isConfig_oracle.mpr (hall.error (settled_warmed keys) hrun)

theorem quotes_settled (hw : reg.WellFormed) {keys : List PriceKey}
    {out : PriceKey → Option PriceStatus} (h : quotes p reg keys = .ok out) {key : PriceKey}
    {status : PriceStatus} (hout : out key = some status) (hkey : reg.Registered key) :
    status.Mild := by
  obtain ⟨s', hrun⟩ := Engine.answer_ok h
  have hall := (collectAnswers_spec fun key _ => resolveStatus_settled (p := p) hw key).ok
    (settled_warmed keys) hrun
  by_cases hmem : key ∈ keys
  · obtain ⟨st, hst, hmild⟩ := hall.2.1 key hmem
    rw [hout, Option.some.injEq] at hst
    exact hst ▸ hmild hkey
  · rw [hall.2.2 key hmem] at hout
    cases hout

theorem quotes_error_settled (hw : reg.WellFormed) {keys : List PriceKey} {e : OracleError}
    (h : quotes p reg keys = .error (.oracle e)) : ¬ e.IsConfig := by
  obtain ⟨s', hrun⟩ := Engine.answer_error h
  have hall := collectAnswers_spec fun key (_ : key ∈ keys) =>
    resolveStatus_settled (p := p) hw key
  exact mt Panic.isConfig_oracle.mpr (hall.error (settled_warmed keys) hrun)

/-! ## Any registry of the contract -/

/-- **The registry stays well formed.** After any calls of the administration, accepted or
rejected, every registered oracle passes the validation of its dependents' mode: what it composes
over is registered, acyclic and at most `maxResolutionDepth` deep, no feed behind it may be staler
than the oracle itself, some source is smoothed, and what two sources share was declared. So
resolving registered keys ends in no configuration error, whatever the providers answer. -/
theorem registry_stays_well_formed (calls : List AdminCall) :
    let reg := Registry.run calls
    (∀ key oracle, reg.getOracle key = some oracle →
      validateOracle reg key oracle false = .ok () ∧
      (∀ k, Relation.ReflTransGen (Dag.Edge reg.succ) key k → reg.Registered k) ∧
      ¬ Relation.TransGen (Dag.Edge reg.succ) key key ∧
      (∀ path, List.IsChain (Dag.Edge reg.succ) (key :: path) →
        path.length ≤ maxResolutionDepth) ∧
      (∀ source, KeyComposition reg key source → ∀ feed ∈ source.ownFeed,
        feed.maxStaleSeconds ≤ oracle.maxPriceStaleSeconds) ∧
      (oracle.hasLpSource = false → ∃ source ∈ oracle.sources, ∀ s, InComposition reg source s →
        (localProperties s).hasUnsmoothedMarketLeg = false) ∧
      (∀ s₁ s₂, oracle.sources = [s₁, s₂] → ∀ c,
        (∃ s, InComposition reg s₁ s ∧ c ∈ (localProperties s).trust) →
        (∃ s, InComposition reg s₂ s ∧ c ∈ (localProperties s).trust) →
        ∃ declared, oracle.independence = .allowShared declared ∧ c ∈ declared)) ∧
    (∀ p keys e, (∀ key ∈ keys, reg.Registered key) →
      prices p reg keys = .error (.oracle e) → ¬ e.IsConfig) ∧
    (∀ p keys e, quotes p reg keys = .error (.oracle e) → ¬ e.IsConfig) ∧
    ∀ p keys out key status, quotes p reg keys = .ok out → out key = some status →
      reg.Registered key → ∀ e : OracleError, e.IsConfig → status.errorCode ≠ some e.code := by
  intro reg
  have hw : reg.WellFormed := Registry.run_wellFormed calls
  refine ⟨fun key oracle h => ?_, fun p keys e hkeys h => prices_settled hw hkeys h,
    fun p keys e h => quotes_error_settled hw h, fun p keys out key status h hout hkey =>
    quotes_settled hw h hout hkey⟩
  have hres := hw.resolvable h
  refine ⟨hw.valid key oracle h, fun k hk => (hres.reach hk).2, hres.acyclic, fun path hpath => ?_,
    fun source hs feed hf => hw.staleness h hs hf, hw.smoothed h, fun s₁ s₂ hs c h₁ h₂ =>
    hw.independent h hs h₁ h₂⟩
  exact Nat.lt_succ_iff.mp (hres.chain_length hpath)

namespace Sample

/-- Registers token 2, then token 1 over it, then narrows the band of token 1. -/
def calls : List AdminCall :=
  [.setOracle redStone (.token 2) direct, .setOracle redStone (.token 1) scaled,
    .setSanityBand redStone (.token 1) 5_800_000_000_000_000_000 6_200_000_000_000_000_000]

end Sample

/-- All three calls are accepted, and token 1 is valid with its narrower band. -/
theorem registry_stays_well_formed_sample :
    ∃ oracle, (Registry.run Sample.calls).getOracle (.token 1) = some oracle ∧
      oracle.minSanityPriceWad = 5_800_000_000_000_000_000 ∧
      oracle.dependencies = [.token 2] ∧
      validateOracle (Registry.run Sample.calls) (.token 1) oracle false = .ok () := by
  have hsome : ((Registry.run Sample.calls).getOracle (.token 1)).any (fun oracle =>
      decide (oracle.minSanityPriceWad = 5_800_000_000_000_000_000 ∧
        oracle.dependencies = [.token 2])) = true := by
    decide +kernel
  obtain ⟨oracle, horacle, hband⟩ := (Option.any_eq_true _ _).mp hsome
  obtain ⟨hmin, hdeps⟩ := of_decide_eq_true hband
  exact ⟨oracle, horacle, hmin, hdeps,
    ((registry_stays_well_formed Sample.calls).1 _ _ horacle).1⟩

end Lending.PriceAggregator
